import CodeContext.Files.Ignore

/-!
# Scans

A scan finds the source files under a directory. Directories are gone through as long as their paths are
not too long to be read, but links are neither followed nor listed, and an entry named `.git` is passed
over. Ignore files can pass over more. The place where a scan starts is never passed over, and a link there
is followed.
-/

namespace CodeContext

/-- A source file that a scan found. -/
structure SourceFile where
  /-- The path from where the scan started. -/
  relPath : String
  /-- The path that the file is read by. -/
  path : String
  deriving DecidableEq

namespace Scan

/-- The layers of ignore rules for what is in a directory. `none` stands for a scan that honours no
ignore files. -/
abbrev Layers := Option (List IgnoreLayer)

def enter (t : FileTree) (layers : Layers) (directory : List String) : Layers :=
  layers.map (IgnoreLayer.ofDirectory t directory :: ·)

def passesOver (layers : Layers) (names : List String) (isDirectory : Bool) : Bool :=
  layers.any fun ls => IgnoreLayer.passesOver ls names isDirectory

mutual

/-- The source files in an entry that a scan meets, each by its names from the entry's directory.
`here` is the canonical path of that directory. -/
def inEntry (t : FileTree) (layers : Layers) (here : List String) (name : String) :
    Entry → List (List String)
  | .link _ => []
  | .file _ =>
    if passesOver layers (here ++ [name]) false || name = ".git" || !Path.isSource name then []
    else [[name]]
  | .directory entries =>
    if passesOver layers (here ++ [name]) true || name = ".git" then []
    else
      (inEntries t (enter t layers (here ++ [name])) (here ++ [name]) entries).map (name :: ·)

/-- The source files in a directory, each by its names from the directory. -/
def inEntries (t : FileTree) (layers : Layers) (here : List String) :
    List (String × Entry) → List (List String)
  | [] => []
  | (name, e) :: rest => inEntry t layers here name e ++ inEntries t layers here rest

end

/-- A source file by its names from the directory with a path. -/
def found (directory : String) (names : List String) : SourceFile :=
  let relPath := String.intercalate "/" names
  ⟨relPath, Path.join directory relPath⟩

/-- Whether the directory that holds a file can be read by its path. The one where the scan starts can. -/
def opens (directory : String) (names : List String) : Bool :=
  names.dropLast.isEmpty || (found directory names.dropLast).path.utf8ByteSize < 4096

def ordered (files : List SourceFile) : List SourceFile :=
  files.mergeSort fun a b => a.relPath ≤ b.relPath

end Scan

namespace FileTree

/-- The source files under a directory, in the order of their paths from there. The path `-` stands
for the standard input, where there is none. -/
def scan (t : FileTree) (respectIgnore : Bool) (path : String) : List SourceFile :=
  if Path.same path "-" then []
  else
    match t.resolve path with
    | .error _ => []
    | .ok here =>
      match t.root.at? here with
      | some (.directory entries) =>
        let above := if respectIgnore then some (IgnoreLayer.above t here.length here) else none
        let names := Scan.inEntries t (Scan.enter t above here) here entries
        Scan.ordered <| (names.filter (Scan.opens path)).map (Scan.found path)
      | some (.file _) => if Path.isSource path then [⟨".", path⟩] else []
      | _ => []

/-- The source file that a path names. -/
def scanFile? (t : FileTree) (path : String) : Option SourceFile :=
  if t.isFile path && Path.isSource path then
    (Path.fileName? path).map fun name => ⟨name, path⟩
  else none

end FileTree

end CodeContext
