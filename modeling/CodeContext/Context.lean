import CodeContext.Document
import CodeContext.Filter

/-!
# Context

What a request for context is answered with: the nodes that its targets select, rendered with the
rules. A request that names no target gets the first nodes of the index, up to a cap.
-/

namespace CodeContext

structure Context where
  bytecode : String
  summary : String
  targets : List String
  deriving DecidableEq

namespace Context

/-- The nodes that answer a request. -/
def select (cap : Nat) (nodes : List Node) (targets : List String) : List Node :=
  let selected := Node.filter nodes targets
  if selected.isEmpty && targets.isEmpty then nodes.take cap else selected

/-- The context of an index for some targets. No decisions are kept anywhere. -/
def compile (rules : List Rule) (cap : Nat) (nodes : List Node) (targets : List String) : Context :=
  let chosen := select cap nodes targets
  { bytecode := Document.render rules chosen []
    summary := "Compiled context for " ++ toString chosen.length ++ " nodes."
    targets := chosen.map Node.id }

open Json in
/-- The context as an object, its fields in their fixed order. -/
def toJson (c : Context) : Value :=
  .object [("bytecode", .string c.bytecode), ("summary", .string c.summary),
    ("targets", .strings c.targets)]

end Context

end CodeContext
