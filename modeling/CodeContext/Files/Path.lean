/-!
# Paths

A path is a text of names between slashes. Its components leave out what says nothing: repeated
slashes, a slash at the end, and the name `.` anywhere but at the beginning of a relative path. Nothing
here looks at any file: `..` stays where it is.
-/

namespace CodeContext

namespace Path

/-- A part of a path. -/
inductive Component where
  /-- The slash that an absolute path starts with. -/
  | root
  /-- The name `.` at the beginning. -/
  | current
  /-- The name `..`. -/
  | parent
  | name (text : String)
  deriving DecidableEq

/-- The texts between slashes. `piece` holds the characters of the current one, in reverse. -/
def piecesFrom (piece : List Char) : List Char → List String
  | [] => [String.ofList piece.reverse]
  | c :: rest =>
    if c = '/' then String.ofList piece.reverse :: piecesFrom [] rest else piecesFrom (c :: piece) rest

/-- The texts between slashes, the empty ones included. -/
def pieces (path : String) : List String :=
  piecesFrom [] path.toList

def isAbsolute (path : String) : Bool :=
  path.toList.head? == some '/'

/-- The component that a text between slashes stands for, if any. -/
def ofPiece (piece : String) : Option Component :=
  if piece = "" || piece = "." then none
  else if piece = ".." then some .parent
  else some (.name piece)

/-- The component that a path starts with, beside its names. -/
def lead (path : String) : List Component :=
  if isAbsolute path then [.root] else if (pieces path).head? == some "." then [.current] else []

def components (path : String) : List Component :=
  lead path ++ (pieces path).filterMap ofPiece

/-- The text of a component in a normal path, where there is neither a root nor a `.`. -/
def Component.normal : Component → Option String
  | root => none
  | current => none
  | parent => some ".."
  | name text => some text

/-- The components joined by single slashes, or `.` if there are none. -/
def joinNormal (cs : List Component) : String :=
  let names := cs.filterMap Component.normal
  if names.isEmpty then "." else String.intercalate "/" names

/-- The path with its names joined by single slashes. -/
def normalize (path : String) : String :=
  joinNormal (components path)

/-- What is left of a list after another list. -/
def after? : List Component → List Component → Option (List Component)
  | [], cs => some cs
  | _ :: _, [] => none
  | b :: bs, c :: cs => if b = c then after? bs cs else none

/-- The normal path from `base` to `path`, if `path` starts with the components of `base`. -/
def relative? (base path : String) : Option String :=
  (after? (components base) (components path)).map joinNormal

/-- Whether a path starts with the components of another. -/
def startsWith (path base : String) : Bool :=
  (after? (components base) (components path)).isSome

/-- Whether two paths have the same components. -/
def same (a b : String) : Bool :=
  components a == components b

/-- The second path as seen from the first. -/
def join (base path : String) : String :=
  if isAbsolute path then path
  else if base = "" || base.toList.getLast? == some '/' then base ++ path
  else base ++ "/" ++ path

/-- The last name of a path, if the path ends in one. -/
def fileName? (path : String) : Option String :=
  match (components path).getLast? with
  | some (.name text) => some text
  | _ => none

/-- The text after the last point of a file name, unless the point comes first. -/
def extension? (path : String) : Option String :=
  (fileName? path).bind fun name =>
    let back := name.toList.reverse
    let last := back.takeWhile (· != '.')
    let stem := (back.dropWhile (· != '.')).drop 1
    if stem.isEmpty then none else some (String.ofList last.reverse)

/-- Whether a path names a C# source file. -/
def isSource (path : String) : Bool :=
  extension? path == some "cs"

/-- The names of a path as the file system takes them, without what says nothing. -/
def names (path : String) : List String :=
  (components path).filterMap Component.normal

/-- The path from the root, seen from a working directory, with no `.` and no repeated slash. A slash
at the end is kept, and so are exactly two at the beginning. An empty path stays empty. -/
def absolute (workingDirectory path : String) : String :=
  if path = "" then ""
  else
    let cs := path.toList
    let start :=
      if !isAbsolute path then workingDirectory
      else if cs.take 2 == ['/', '/'] && cs.take 3 != ['/', '/', '/'] then "//"
      else "/"
    let full := (names path).foldl join start
    if cs.getLast? == some '/' then join full "" else full

end Path

end CodeContext
