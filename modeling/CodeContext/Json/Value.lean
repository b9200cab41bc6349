import CodeContext.Text.Sorted
import CodeContext.Number.Literal

/-!
# JSON values

The values that a JSON text stands for. A number without a point or an exponent is an integer of at
most sixty-four bits; any other is a binary64 number. An object holds its members in a fixed order:
objects that are read are ordered by key.
-/

namespace CodeContext.Json

inductive Number where
  | integer (n : Int)
  | real (x : Binary64)
  deriving DecidableEq

inductive Value where
  | null
  | bool (b : Bool)
  | number (n : Number)
  | string (s : String)
  | array (items : List Value)
  | object (members : List (String × Value))

namespace Value

def ofInt (n : Int) : Value :=
  .number (.integer n)

/-- A real number as a value. What is not finite has no number in JSON. -/
def ofReal (x : Binary64) : Value :=
  if x.isFinite then .number (.real x) else .null

def strings (items : List String) : Value :=
  .array (items.map .string)

/-- The member of an object with a key. -/
def get? (v : Value) (key : String) : Option Value :=
  match v with
  | .object members => members.lookup key
  | _ => none

mutual

/-- The same value with the members of every object in the order of their keys. -/
def sorted : Value → Value
  | .array items => .array (sortedItems items)
  | .object members => .object (sortedMembers members)
  | v => v

def sortedItems : List Value → List Value
  | [] => []
  | v :: rest => v.sorted :: sortedItems rest

def sortedMembers : List (String × Value) → List (String × Value)
  | [] => []
  | (key, v) :: rest => putEntry key v.sorted (sortedMembers rest)

end

end Value

end CodeContext.Json
