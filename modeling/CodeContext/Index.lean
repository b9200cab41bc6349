import CodeContext.CSharp.Extract
import CodeContext.Files.Scan

/-!
# Indexes

An index of a directory or a file holds the nodes of the source files there, file by file in the order
of their paths. A file that cannot be read counts as an error and gives no nodes.
-/

namespace CodeContext

structure Index where
  nodes : List Node
  /-- How many source files were found. -/
  scanned : Nat
  /-- How many of them were read. -/
  indexed : Nat
  errors : Nat
  /-- How many nodes there are. -/
  count : Nat

namespace Index

/-- What there is to index at a path. -/
def sources (t : FileTree) (respectIgnore : Bool) (path : String) : List SourceFile :=
  if t.isDirectory path then t.scan respectIgnore path else (t.scanFile? path).toList

/-- The nodes of a file, if it can be read. -/
def nodesOf? (parser : CSharp.Parser) (t : FileTree) (file : SourceFile) : Option (List Node) :=
  match t.readText file.path with
  | .ok text => some (CSharp.extractWith parser text file.relPath).nodes
  | .error _ => none

/-- One more file counts as indexed with its nodes, or as an error if it has none to give. -/
def add (index : Index) : Option (List Node) → Index
  | some nodes => { index with nodes := index.nodes ++ nodes, indexed := index.indexed + 1 }
  | none => { index with errors := index.errors + 1 }

/-- The index of some files. -/
def ofFiles (parser : CSharp.Parser) (t : FileTree) (files : List SourceFile) : Index :=
  let start : Index := ⟨[], files.length, 0, 0, 0⟩
  let found := files.foldl (fun index file => index.add (nodesOf? parser t file)) start
  { found with count := found.nodes.length }

/-- The index of a directory or a file by a parser. What is neither has none. -/
def ofPathWith (parser : CSharp.Parser) (t : FileTree) (respectIgnore : Bool) (path : String) : Index :=
  ofFiles parser t (sources t respectIgnore path)

def ofPath (t : FileTree) (respectIgnore : Bool) (path : String) : Index :=
  ofPathWith CSharp.Source.parse t respectIgnore path

end Index

end CodeContext
