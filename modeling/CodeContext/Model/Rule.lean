import CodeContext.Json.Decoder
import CodeContext.Json.Printer

/-!
# Rules

An architectural rule has an id, a priority and a description. There are two built-in rules.
-/

namespace CodeContext

structure Rule where
  id : String
  priority : Binary64
  description : String
  deriving DecidableEq

namespace Rule

open Json

/-- The rule as an object, its fields in their fixed order. -/
def toJson (r : Rule) : Value :=
  .object [("rule_id", .string r.id), ("priority", .ofReal r.priority),
    ("description", .string r.description)]

/-- A rule whose fields are being read. -/
structure Draft where
  id : Option String
  priority : Option Binary64
  description : Option String

open Decoder in
def shape : Shape Draft Rule where
  name := "Rule"
  blank := ⟨none, none, none⟩
  fields :=
    [slot "rule_id" string (·.id) fun x d => { d with id := some x },
      slot "priority" real (·.priority) fun x d => { d with priority := some x },
      slot "description" string (·.description) fun x d => { d with description := some x }]
  finish d := do
    .ok {
      id := ← required "rule_id" d.id
      priority := ← required "priority" d.priority
      description := ← required "description" d.description }

def decoder : Decoder Rule :=
  shape.decoder

/-- The rules that every request is answered with. -/
def builtIn : List Rule :=
  [⟨"R01", .ofQuotient false 9 10, "Services must not access DB directly. Use repositories."⟩,
    ⟨"R02", .ofQuotient false 6 10, "Validation logic belongs to the Domain layer."⟩]

end Rule

end CodeContext
