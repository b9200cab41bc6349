import CodeContext.Json.Decoder

/-!
# Requests

A request names a method, gives its parameters, and has an id that the response repeats. The id and
the parameters can be any values; a request without them has null for both. Each method that takes
parameters has a record of its own for them.
-/

namespace CodeContext

open Json Json.Decoder

structure Request where
  id : Value
  method : String
  params : Value

namespace Request

/-- A request whose fields are being read. -/
structure Draft where
  id : Option Value
  method : Option String
  params : Option Value

def shape : Shape Draft Request where
  name := "RpcRequest"
  blank := ⟨none, none, none⟩
  fields :=
    [(slot "id" value (·.id) fun x d => { d with id := some x }).orDefault,
      slot "method" string (·.method) fun x d => { d with method := some x },
      (slot "params" value (·.params) fun x d => { d with params := some x }).orDefault]
  finish d := do
    .ok {
      id := d.id.getD .null
      method := ← required "method" d.method
      params := d.params.getD .null }

def decoder : Decoder Request :=
  shape.decoder

/-- An id given as text: the JSON value it holds, or else the text itself. -/
def idOfText (text : String) : Value :=
  match Value.parse text with
  | .ok v => v
  | .error _ => .string text

/-- The request with parameters and an id that are given as texts. -/
def ofTexts (method params id : String) : Except Json.Error Request :=
  (Value.parse params).map fun params => ⟨idOfText id, method, params⟩

end Request

/-- What a context is compiled for. -/
structure ContextParams where
  path : Option String
  targets : Option (List String)

namespace ContextParams

/-- Parameters that are being read. -/
structure Draft where
  path : Option (Option String)
  targets : Option (Option (List String))

def shape : Shape Draft ContextParams where
  name := "CompileContextParams"
  blank := ⟨none, none⟩
  fields :=
    [((slot "path" (option string) (·.path) fun x d => { d with path := some x }).orDefault).alsoNamed
        "solution_path",
      (slot "targets" (option (list string)) (·.targets)
        fun x d => { d with targets := some x }).orDefault]
  finish d := .ok ⟨d.path.getD none, d.targets.getD none⟩

def decoder : Decoder ContextParams :=
  shape.decoder

end ContextParams

/-- What is indexed. -/
structure IndexParams where
  path : String

namespace IndexParams

def shape : Shape (Option String) IndexParams where
  name := "IndexParams"
  blank := none
  fields := [slot "path" string id fun x _ => some x]
  finish d := do .ok ⟨← required "path" d⟩

def decoder : Decoder IndexParams :=
  shape.decoder

end IndexParams

/-- Which lines of a file are fetched. -/
structure FetchParams where
  path : String
  startLine : Int
  endLine : Int

namespace FetchParams

/-- Parameters that are being read. -/
structure Draft where
  path : Option String
  startLine : Option Int
  endLine : Option Int

def shape : Shape Draft FetchParams where
  name := "FetchCodeParams"
  blank := ⟨none, none, none⟩
  fields :=
    [slot "path" string (·.path) fun x d => { d with path := some x },
      (slot "start_line" int64 (·.startLine) fun x d => { d with startLine := some x }).orDefault,
      (slot "end_line" int64 (·.endLine) fun x d => { d with endLine := some x }).orDefault]
  finish d := do
    .ok {
      path := ← required "path" d.path
      startLine := d.startLine.getD 1
      endLine := d.endLine.getD maxInt64 }

def decoder : Decoder FetchParams :=
  shape.decoder

end FetchParams

end CodeContext
