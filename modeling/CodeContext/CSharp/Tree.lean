import CodeContext.CSharp.Token

/-!
# Trees over tokens

The structure of a source is a tree whose leaves are numbers of tokens. Classes and methods, their
names, and the bodies of types have nodes of their own. What else can hold a class or a method, such as
a struct, an interface, a record, a namespace or a branch of a condition, is a node of one kind. A node
for an error holds tokens that fit nowhere. A parser is whatever gives the trees of each text.
-/

namespace CodeContext.CSharp

inductive Construct where
  | classDeclaration
  | methodDeclaration
  | name
  | body
  | other
  | error
  deriving DecidableEq

inductive Tree where
  | leaf (token : Nat)
  | node (construct : Construct) (children : List Tree)

namespace Tree

mutual

/-- The numbers of the tokens of a tree, from left to right. -/
def leaves : Tree → List Nat
  | .leaf i => [i]
  | .node _ children => leavesOf children

def leavesOf : List Tree → List Nat
  | [] => []
  | t :: rest => t.leaves ++ leavesOf rest

end

end Tree

/-- The tokens of a text and the trees over them. A token that is not there but would mend the text has a leaf,
whose number is that of no token. -/
structure Source where
  tokens : Array Token
  trees : List Tree
  hasErrors : Bool

abbrev Parser := String → Source

end CodeContext.CSharp
