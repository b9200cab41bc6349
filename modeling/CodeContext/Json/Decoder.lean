import CodeContext.Json.Reader

/-!
# Typed reading of JSON

A decoder gets a value of some type from a JSON value that is there already, or straight from a text.
From a text it stops at the first problem in reading order, so a wrong type is reported before a
fault further on. A record is an object with named fields, in any order and with unknown fields passed
over, or an array of its fields in their order.
-/

namespace CodeContext.Json

/-- Two ways to get a value of a type. The number is the bound on nesting. -/
structure Decoder (α : Type) where
  ofValue : Value → Except Problem α
  read : Nat → Cursor → Except Error (α × Cursor)

/-- Reads a text that holds one value of a type. -/
def Decoder.parse {α : Type} (d : Decoder α) (text : String) : Except Error α := do
  let (x, k) ← d.read depthLimit (.start text.toList)
  readEnd x k

namespace Decoder

variable {α : Type}

/-- The error for a value of a wrong type. A scalar is read to its end to be described; a bracket is
not read. -/
def refuseNext (expected : String) (k : Cursor) : Except Error (α × Cursor) :=
  match k.peek? with
  | none => k.failAhead .endOfValue
  | some c =>
    if c = '[' then k.refuse (.wrongType "sequence" expected)
    else if c = '\x7b' then k.refuse (.wrongType "map" expected)
    else
      match readValue 1 k with
      | .error e => .error e
      | .ok (v, k) => k.refuse (.wrongType v.described expected)

def refuseValue (expected : String) (v : Value) : Except Problem α :=
  .error (.wrongType v.described expected)

/-- Any value. -/
def value : Decoder Value :=
  ⟨.ok, readValue⟩

def string : Decoder String where
  ofValue
    | .string s => .ok s
    | v => refuseValue "a string" v
  read _ k :=
    let k := k.skipSpace
    if k.peek? == some '"' then readString k.skip else refuseNext "a string" k

/-- The largest signed integer of sixty-four bits. -/
def maxInt64 : Int :=
  9223372036854775807

/-- A signed integer of sixty-four bits from a number. -/
def int64Of (n : Number) : Except Problem Int :=
  match n with
  | .integer n =>
    if n ≤ maxInt64 then .ok n else .error (.wrongValue (Value.described (.number (.integer n))) "i64")
  | .real x => refuseValue "i64" (.number (.real x))

/-- A number as binary64. -/
def realOf : Number → Binary64
  | .integer n => .ofInt n
  | .real x => x

/-- Whether a number starts here. -/
def startsNumber (k : Cursor) : Bool :=
  k.peek?.any fun c => c = '-' || c.isDigit

def int64 : Decoder Int where
  ofValue
    | .number n => int64Of n
    | v => refuseValue "i64" v
  read _ k :=
    let k := k.skipSpace
    if startsNumber k then do
      let negative := k.peek? == some '-'
      let (n, k) ← readNumber negative (if negative then k.skip else k)
      match int64Of n with
      | .ok n => .ok (n, k)
      | .error p => k.refuse p
    else refuseNext "i64" k

def real : Decoder Binary64 where
  ofValue
    | .number n => .ok (realOf n)
    | v => refuseValue "f64" v
  read _ k :=
    let k := k.skipSpace
    if startsNumber k then do
      let negative := k.peek? == some '-'
      let (n, k) ← readNumber negative (if negative then k.skip else k)
      .ok (realOf n, k)
    else refuseNext "f64" k

/-- A value or null. -/
def option (d : Decoder α) : Decoder (Option α) where
  ofValue
    | .null => .ok none
    | v => (d.ofValue v).map some
  read depth k :=
    let k := k.skipSpace
    if k.peek? == some 'n' then (readWord "ull".toList k.skip).map fun k => (none, k)
    else (d.read depth k).map fun (x, k) => (some x, k)

def list (d : Decoder α) : Decoder (List α) where
  ofValue
    | .array vs => vs.mapM d.ofValue
    | v => refuseValue "a sequence" v
  read depth k :=
    let k := k.skipSpace
    if k.peek? == some '[' then
      if depth ≤ 1 then k.failAhead .tooDeep
      else readItems (d.read (depth - 1)) (k.rest.length + 1) true k.skip
    else refuseNext "a sequence" k

def map (d : Decoder α) : Decoder (TextMap α) where
  ofValue
    | .object ms =>
      (ms.mapM fun (m : String × Value) => (d.ofValue m.2).map (m.1, ·)).map TextMap.ofList
    | v => refuseValue "a map" v
  read depth k :=
    let k := k.skipSpace
    if k.peek? == some '\x7b' then
      if depth ≤ 1 then k.failAhead .tooDeep
      else
        (readMembers (d.read (depth - 1)) (k.rest.length + 1) true k.skip).map fun (ms, k) =>
          (TextMap.ofList ms, k)
    else refuseNext "a map" k

/-- A set of strings, from an array. -/
def set : Decoder TextSet where
  ofValue v := ((list string).ofValue v).map TextSet.ofList
  read depth k := ((list string).read depth k).map fun (xs, k) => (TextSet.ofList xs, k)

/-- One of several named values: its name, or an object that maps its name to null. -/
def variant (known : List String) (named : String → Option α) : Decoder α where
  ofValue
    | .string s => ofName s
    | .object [(key, v)] => do
      let x ← ofName key
      match v with
      | .null => .ok x
      | v => refuseValue "unit" v
    | .object _ => .error (.wrongValue "map" "map with a single key")
    | v => refuseValue "string or map" v
  read depth k :=
    let k := k.skipSpace
    match k.peek? with
    | none => k.failAhead .endOfValue
    | some c =>
      if c = '"' then readName k
      else if c = '\x7b' then
        if depth ≤ 1 then k.failAhead .tooDeep
        else do
          let k := k.skip.skipSpace
          let (x, k) ← if k.peek? == some '"' then readName k else refuseNext "variant identifier" k
          let k := (← readColon k).skipSpace
          let k ← if k.peek? == some 'n' then readWord "ull".toList k.skip
            else (refuseNext "unit" k).map fun (_ : α × Cursor) => k
          let k := k.skipSpace
          match k.peek? with
          | none => k.fail .endOfObject
          | some c => if c = '\x7d' then .ok (x, k.skip) else k.fail .valueExpected
      else k.failAhead .valueExpected
where
  ofName (s : String) : Except Problem α :=
    match named s with
    | some x => .ok x
    | none => .error (.unknownVariant s known)
  readName (k : Cursor) : Except Error (α × Cursor) := do
    let (s, k) ← readString k.skip
    match ofName s with
    | .ok x => .ok (x, k)
    | .error p => k.refuse p

/-! ## Records -/

/-- A field of a record that is being filled, of type `σ`. -/
structure Field (σ : Type) where
  /-- The field's name, and other names for it. -/
  name : String
  aliases : List String
  /-- Whether an array may end before the field. -/
  optional : Bool
  filled : σ → Bool
  ofValue : Value → σ → Except Problem σ
  read : Nat → Cursor → σ → Except Error (σ × Cursor)

/-- A field that is kept in a slot of the record being filled. -/
def slot {σ β : Type} (name : String) (d : Decoder β) (get : σ → Option β) (set : β → σ → σ) :
    Field σ where
  name
  aliases := []
  optional := false
  filled s := (get s).isSome
  ofValue v s := (d.ofValue v).map fun x => set x s
  read depth k s := (d.read depth k).map fun (x, k) => (set x s, k)

namespace Field

variable {σ : Type}

/-- The same field, which an array may leave out. -/
def orDefault (f : Field σ) : Field σ :=
  { f with optional := true }

/-- The same field under one more name. -/
def alsoNamed (other : String) (f : Field σ) : Field σ :=
  { f with aliases := other :: f.aliases }

def hasName (key : String) (f : Field σ) : Bool :=
  key == f.name || f.aliases.contains key

end Field

/-- A record: its name, its fields, and how it is made from what was filled in. -/
structure Shape (σ α : Type) where
  name : String
  fields : List (Field σ)
  blank : σ
  finish : σ → Except Problem α

namespace Shape

variable {σ : Type}

def described (s : Shape σ α) : String :=
  "struct " ++ s.name

/-- What an array for the record should have been. -/
def arrayDescribed (s : Shape σ α) : String :=
  s.described ++ " with " ++ toString s.fields.length ++
    (if s.fields.length = 1 then " element" else " elements")

/-- Fills in the members of an object, in their order. -/
def ofMembers (s : Shape σ α) : List (String × Value) → σ → Except Problem σ
  | [], draft => .ok draft
  | (key, v) :: rest, draft =>
    match s.fields.find? (·.hasName key) with
    | none => ofMembers s rest draft
    | some f =>
      if f.filled draft then .error (.duplicateField f.name)
      else do ofMembers s rest (← f.ofValue v draft)

/-- Fills in the items of an array, in the order of the fields. `done` counts those filled in. -/
def ofItems (s : Shape σ α) (total : Nat) : Nat → List (Field σ) → List Value → σ → Except Problem σ
  | _, [], [], draft => .ok draft
  | _, [], _ :: _, _ => .error (.wrongLength total "fewer elements in array")
  | done, f :: fs, [], draft =>
    if f.optional then ofItems s total (done + 1) fs [] draft
    else .error (.wrongLength done s.arrayDescribed)
  | done, f :: fs, v :: vs, draft => do ofItems s total (done + 1) fs vs (← f.ofValue v draft)

/-- The record is finished, or refused at the place after its closing bracket. -/
def finishAt (s : Shape σ α) (draft : σ) (k : Cursor) : Except Error (α × Cursor) :=
  match s.finish draft with
  | .ok x => .ok (x, k)
  | .error p => k.refuse p

/-- The place that a repeated field is reported at: the next token, or after it if it closes the
object. -/
def repeatedAt (k : Cursor) : Cursor :=
  let k := k.skipSpace
  if k.peek? == some '\x7d' then k.skip else k

/-- Reads the members of an object up to its closing brace. Each step reads at least one character. -/
def readFields (s : Shape σ α) (depth : Nat) : Nat → Bool → Cursor → σ → Except Error (α × Cursor)
  | 0, _, k, _ => k.failAhead .endOfObject
  | fuel + 1, first, k, draft => do
    let (more, k) ← moreMembers first k
    if more then
      let (key, k) ← readString k.skip
      match s.fields.find? (·.hasName key) with
      | none => readFields s depth fuel false (← passValue (← readColon k)) draft
      | some f =>
        if f.filled draft then (repeatedAt k).refuse (.duplicateField f.name)
        else
          let (draft, k) ← f.read depth (← readColon k) draft
          readFields s depth fuel false k draft
    else s.finishAt draft k.skip

/-- Reads the closing bracket of an array that has an item for every field. -/
def closeItems (s : Shape σ α) (k : Cursor) (draft : σ) : Except Error (α × Cursor) :=
  match s.finish draft with
  | .error p => k.refuse p
  | .ok x =>
    let k := k.skipSpace
    match k.peek? with
    | none => k.failAhead .endOfList
    | some c =>
      if c = ']' then .ok (x, k.skip)
      else if c = ',' then
        let k := k.skip.skipSpace
        k.failAhead (if k.peek? == some ']' then .trailingComma else .trailingCharacters)
      else k.failAhead .trailingCharacters

/-- Reads the items of an array, one for each field. -/
def readItemsOf (s : Shape σ α) (depth : Nat) :
    Nat → List (Field σ) → Cursor → σ → Except Error (α × Cursor)
  | _, [], k, draft => closeItems s k draft
  | done, f :: fs, k, draft => do
    let (more, k) ← moreItems (done == 0) k
    if more then
      let (draft, k) ← f.read depth k draft
      readItemsOf s depth (done + 1) fs k draft
    else
      match (f :: fs).findIdx? (!·.optional) with
      | some i => k.skip.refuse (.wrongLength (done + i) s.arrayDescribed)
      | none => s.finishAt draft k.skip

/-- The decoder of a record. -/
def decoder (s : Shape σ α) : Decoder α where
  ofValue
    | .object ms => do s.finish (← s.ofMembers ms s.blank)
    | .array vs => do s.finish (← s.ofItems vs.length 0 s.fields vs s.blank)
    | v => refuseValue s.described v
  read depth k :=
    let k := k.skipSpace
    match k.peek? with
    | none => k.failAhead .endOfValue
    | some c =>
      if c = '\x7b' then
        if depth ≤ 1 then k.failAhead .tooDeep
        else s.readFields (depth - 1) (k.rest.length + 1) true k.skip s.blank
      else if c = '[' then
        if depth ≤ 1 then k.failAhead .tooDeep
        else s.readItemsOf (depth - 1) 0 s.fields k.skip s.blank
      else refuseNext s.described k

end Shape

/-- What a slot holds, or the problem that its field is missing. -/
def required {β : Type} (name : String) (held : Option β) : Except Problem β :=
  match held with
  | some x => .ok x
  | none => .error (.missingField name)

end Decoder

end CodeContext.Json
