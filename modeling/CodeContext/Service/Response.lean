import CodeContext.Json.Printer

/-!
# Responses

A response repeats the id of its request, with a result or the message of an error.
-/

namespace CodeContext

open Json

structure Response where
  id : Value
  outcome : Except String Value

namespace Response

/-- The member of a response that is not its id. -/
def outcomeMember : Except String Value → String × Value
  | .ok result => ("result", result.sorted)
  | .error message => ("error", .object [("message", .string message)])

/-- The response as an object. The members of objects within it are in the order of their keys. -/
def toJson (r : Response) : Value :=
  .object [("id", r.id.sorted), outcomeMember r.outcome]

/-- The response on one line, without a line feed. -/
def line (r : Response) : String :=
  r.toJson.compact

end Response

end CodeContext
