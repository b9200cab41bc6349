import CodeContext.Json.Decoder
import CodeContext.Json.Printer

/-!
# Decisions

A decision is an architectural choice made in the past: its context, the rule it follows, if any, and
the nodes it is about.
-/

namespace CodeContext

structure Decision where
  id : String
  ruleId : Option String
  context : String
  scope : List String
  deriving DecidableEq

namespace Decision

open Json

/-- The decision as an object, its fields in their fixed order. -/
def toJson (d : Decision) : Value :=
  .object [("decision_id", .string d.id), ("rule_id", (d.ruleId.map Value.string).getD .null),
    ("context", .string d.context), ("scope_nodes", .strings d.scope)]

/-- A decision whose fields are being read. -/
structure Draft where
  id : Option String
  ruleId : Option (Option String)
  context : Option String
  scope : Option (List String)

open Decoder in
def shape : Shape Draft Decision where
  name := "Decision"
  blank := ⟨none, none, none, none⟩
  fields :=
    [slot "decision_id" string (·.id) fun x d => { d with id := some x },
      slot "rule_id" (option string) (·.ruleId) fun x d => { d with ruleId := some x },
      slot "context" string (·.context) fun x d => { d with context := some x },
      (slot "scope_nodes" (list string) (·.scope) fun x d => { d with scope := some x }).orDefault]
  finish d := do
    .ok {
      id := ← required "decision_id" d.id
      ruleId := d.ruleId.getD none
      context := ← required "context" d.context
      scope := d.scope.getD [] }

def decoder : Decoder Decision :=
  shape.decoder

end Decision

end CodeContext
