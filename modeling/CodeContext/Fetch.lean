import CodeContext.Files.Tree
import CodeContext.Text.Blank
import CodeContext.Text.Lines
import CodeContext.Text.Lowercase

/-!
# Fetching code

Lines of a file are handed out if the file is under an authorized root. A path with two points in a
row or a tilde is refused as it stands. Any other is seen from the root, with links resolved if it leads
somewhere, and then must start with the components of the authorized root seen in the same way.
-/

namespace CodeContext

/-- Lines of a file, and the path that they were asked for by. -/
structure Fetched where
  path : String
  code : String
  deriving DecidableEq

inductive FetchError where
  | traversal
  | blank
  | outside (path : String)
  | notFound (path : String)
  | unreadable (path : String) (cause : FileError)
  deriving DecidableEq

namespace FetchError

def message : FetchError → String
  | traversal => "invalid path: traversal patterns detected"
  | blank => "invalid path: empty"
  | outside path => "access to path '" ++ path ++ "' is denied: outside the authorized scope"
  | notFound path => "file not found: " ++ path
  | unreadable path _ => "read " ++ path

/-- What lies below the message. -/
def causes : FetchError → List String
  | unreadable _ cause => [cause.message]
  | _ => []

end FetchError

namespace Fetched

/-- Whether a path could leave the directory that it is seen from. -/
def traverses (path : String) : Bool :=
  Text.occursIn ['.', '.'] path.toList || path.toList.contains '~'

/-- The path of a file under a root, both seen from the root of the tree. -/
def locate (t : FileTree) (root path : String) : String :=
  t.absolute (Path.join (t.absolute root) path)

/-- The lines with numbers from `start` to `stop` of a file under an authorized root. -/
def ofFile (t : FileTree) (root path : String) (start stop : Int) : Except FetchError Fetched :=
  if traverses path then .error .traversal
  else if Text.blank path then .error .blank
  else
    let full := locate t root path
    if !Path.startsWith full (t.absolute root) then .error (.outside path)
    else if !t.isFile full then .error (.notFound path)
    else
      match t.readText full with
      | .error e => .error (.unreadable full e)
      | .ok text => .ok ⟨path, Text.slice text start stop⟩

end Fetched

end CodeContext
