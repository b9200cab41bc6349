import CodeContext.CSharp.Source
import CodeContext.Model.Node
import CodeContext.Text.Blank

/-!
# The methods of a source

Every method that stands in a class gives a node, in the order of the source. Its class is the nearest
one around it, whatever stands between. Methods inside of methods are not looked for, nor is anything
in a class outside of its body. A class or method without a name gives nothing. What is a class or a method
is for the parser to say.
-/

namespace CodeContext.CSharp

/-- A method of a class, with the lines of its declaration. -/
structure Method where
  className : String
  name : String
  firstLine : Nat
  lastLine : Nat
  deriving DecidableEq

namespace Tree

variable (tokens : Array Token)

/-- The line where a tree starts. -/
def firstLine (t : Tree) : Nat :=
  ((t.leaves.head?.bind (tokens[·]?)).map Token.firstLine).getD 0

/-- The line where a tree ends, or where it starts if that is further down. -/
def lastLine (t : Tree) : Nat :=
  max (((t.leaves.getLast?.bind (tokens[·]?)).map Token.lastLine).getD 0) (t.firstLine tokens)

/-- The text of a list of trees. -/
def textOf (ts : List Tree) : String :=
  String.join ((leavesOf ts).map fun i => (tokens[i]?.map Token.text).getD "")

/-- The name among the children of a declaration. It is empty if there is none. -/
def nameAmong : List Tree → String
  | [] => ""
  | .node .name children :: _ => textOf tokens children
  | _ :: rest => nameAmong rest

/-- The method of a class that a declaration with the given children is, if it has a name. -/
def methodOf (className : String) (children : List Tree) : List Method :=
  let name := nameAmong tokens children
  let whole := Tree.node .methodDeclaration children
  if name = "" then [] else [⟨className, name, whole.firstLine tokens, whole.lastLine tokens⟩]

mutual

/-- The methods in a tree, inside of a class if a class is given. -/
def methods (className : Option String) : Tree → List Method
  | .leaf _ => []
  | .node .methodDeclaration children =>
    match className with
    | none => []
    | some c => methodOf tokens c children
  | .node .classDeclaration children =>
    let name := nameAmong tokens children
    if name = "" then [] else methodsOfBody name children
  | .node .name children => methodsOf className children
  | .node .body children => methodsOf className children
  | .node .other children => methodsOf className children
  | .node .error children => methodsOf className children

/-- The methods in a list of trees. -/
def methodsOf (className : Option String) : List Tree → List Method
  | [] => []
  | t :: rest => t.methods className ++ methodsOf className rest

/-- The methods in the body among the children of a class. -/
def methodsOfBody (className : String) : List Tree → List Method
  | [] => []
  | .node .body children :: _ => methodsOf (some className) children
  | _ :: rest => methodsOfBody className rest

end

end Tree

/-- What is found in a source. -/
structure Extraction where
  nodes : List Node
  hasErrors : Bool

/-- The node of a method in the file with a path. -/
def Method.toNode (path : String) (m : Method) : Node where
  id := Node.methodId m.className m.name
  category := Category.ofTypeName m.className
  path := path
  lineStart := m.firstLine
  lineEnd := m.lastLine
  tags := .empty
  deps := .empty
  amplitudes := .empty
  summary := m.name

/-- The nodes of the methods in the trees of a source, in the file with a path. -/
def Source.nodes (s : Source) (path : String) : List Node :=
  (Tree.methodsOf s.tokens none s.trees).map (Method.toNode path)

/-- What a parser finds in a text, for the file with a path. -/
def extractWith (parser : Parser) (text path : String) : Extraction :=
  let source := parser text
  { nodes := source.nodes path
    hasErrors := source.hasErrors }

def extract (text path : String) : Extraction :=
  extractWith Source.parse text path

end CodeContext.CSharp
