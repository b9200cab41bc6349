import CodeContext.Files.Path
import CodeContext.Text.Sorted

/-!
# File trees

A file tree holds regular files, symbolic links and directories, and a place in it is where relative
paths start. A path is resolved name by name: each name is looked for in the directory reached, `..`
goes to the directory above, and a link is replaced by its target. What remains is the canonical path,
a list of names from the root with no link on the way.
-/

namespace CodeContext

/-- What a name in a directory stands for. -/
inductive Entry where
  | file (content : ByteArray)
  | link (target : String)
  | directory (entries : List (String × Entry))

/-- Why a path leads nowhere, or a file cannot be read. -/
inductive FileError where
  | notFound
  | notDirectory
  | isDirectory
  | nameTooLong
  | tooManyLinks
  | nullInName
  | notText
  deriving DecidableEq

namespace FileError

def message : FileError → String
  | notFound => "No such file or directory (os error 2)"
  | notDirectory => "Not a directory (os error 20)"
  | isDirectory => "Is a directory (os error 21)"
  | nameTooLong => "File name too long (os error 36)"
  | tooManyLinks => "Too many levels of symbolic links (os error 40)"
  | nullInName => "file name contained an unexpected NUL byte"
  | notText => "stream did not contain valid UTF-8"

end FileError

namespace Entry

def isDirectory : Entry → Bool
  | .directory _ => true
  | _ => false

def isFile : Entry → Bool
  | .file _ => true
  | _ => false

/-- The entry with a name in a directory. -/
def child? (e : Entry) (name : String) : Option Entry :=
  match e with
  | .directory entries => entries.lookup name
  | _ => none

/-- The entry at the end of a list of names, with no link followed. -/
def at? : Entry → List String → Option Entry
  | e, [] => some e
  | e, name :: rest =>
    match e.child? name with
    | none => none
    | some e => at? e rest

end Entry

/-- A tree and the canonical path of its working directory. -/
structure FileTree where
  root : Entry
  workingDirectory : List String

namespace FileTree

/-- The text of a canonical path. -/
def textOf (names : List String) : String :=
  "/" ++ String.intercalate "/" names

/-- How many links may be followed for one path. -/
def linkLimit : Nat := 40

/-- Resolves pieces of a path from a directory on. The directory is given by its canonical path. -/
def resolveFrom (root : Entry) (links : Nat) (here pieces : List String) :
    Except FileError (List String) :=
  match pieces with
  | [] => .ok here
  | piece :: rest =>
    match root.at? here with
    | none => .error .notFound
    | some (.file _) => .error .notDirectory
    | some (.link _) => .error .notDirectory
    | some (.directory entries) =>
      if piece = "" || piece = "." then resolveFrom root links here rest
      else if piece = ".." then resolveFrom root links here.dropLast rest
      else if 255 < piece.utf8ByteSize then .error .nameTooLong
      else
        match entries.lookup piece with
        | none => .error .notFound
        | some (.link target) =>
          match links with
          | 0 => .error .tooManyLinks
          | links + 1 =>
            resolveFrom root links (if Path.isAbsolute target then [] else here)
              (Path.pieces target ++ rest)
        | some _ => resolveFrom root links (here ++ [piece]) rest
termination_by (links, pieces.length)

/-- The canonical path of what a path leads to. A path of 4096 bytes or more as it is spelled is refused, as it
is wherever a file is opened or looked at. Nothing is refused for the length of its canonical path, of which
canonicalization refuses prefixes of 4096 bytes or more, however short the spelled path is. -/
def resolve (t : FileTree) (path : String) : Except FileError (List String) :=
  if path = "" then .error .notFound
  else if path.toList.contains '\x00' then .error .nullInName
  else if 4096 ≤ path.utf8ByteSize then .error .nameTooLong
  else
    resolveFrom t.root linkLimit (if Path.isAbsolute path then [] else t.workingDirectory)
      (Path.pieces path)

/-- What a path leads to. -/
def find? (t : FileTree) (path : String) : Option Entry :=
  match t.resolve path with
  | .ok names => t.root.at? names
  | .error _ => none

def isDirectory (t : FileTree) (path : String) : Bool :=
  (t.find? path).any Entry.isDirectory

def isFile (t : FileTree) (path : String) : Bool :=
  (t.find? path).any Entry.isFile

/-- The text of a regular file. -/
def readText (t : FileTree) (path : String) : Except FileError String :=
  match t.resolve path with
  | .error e => .error e
  | .ok names =>
    match t.root.at? names with
    | some (.file content) =>
      match String.fromUTF8? content with
      | some text => .ok text
      | none => .error .notText
    | some _ => .error .isDirectory
    | none => .error .notFound

def workingPath (t : FileTree) : String :=
  textOf t.workingDirectory

/-- The canonical path of what a path leads to. A path that leads nowhere is only seen from the root. -/
def absolute (t : FileTree) (path : String) : String :=
  match t.resolve path with
  | .ok names => textOf names
  | .error _ => Path.absolute t.workingPath path

end FileTree

end CodeContext
