import CodeContext.Json.Cursor

/-!
# Reading JSON

Numbers, strings and whole values are read from a cursor. Arrays and objects nest at most 127 deep.
A value that nobody asks for is passed over with fewer checks: its numbers may be out of range, its
escapes may be lone surrogates, and it may nest to any depth.

A number that is not a small integer is computed in binary64 arithmetic: the leading digits that fit
into sixty-four bits, as a binary64 number, times or divided by a power of ten. The result can differ
from the nearest number in its last bits.
-/

namespace CodeContext.Json

/-! ## Numbers -/

/-- The largest integer that the digits of a number are collected in. -/
def maxWord : Nat :=
  Nat.pow 2 64 - 1

/-- Takes digits into a significand until one does not fit. Gives the significand and the count of
digits taken. -/
def absorb (significand : Nat) : List Char → Nat × Nat
  | [] => (significand, 0)
  | c :: rest =>
    let more := significand * 10 + (c.toNat - 48)
    if more ≤ maxWord then
      let (s, n) := absorb more rest
      (s, n + 1)
    else (significand, 0)

/-- A number times a power of ten, in binary64 arithmetic, and nothing if it is too large. A power
below the range is applied in steps of `10 ^ 308`; the fuel is the number of steps, after four of
which only zero is left. -/
def timesPowerOfTen : Nat → Binary64 → Int → Option Binary64
  | 0, _, _ => some (.ofNat 0)
  | fuel + 1, x, e =>
    if e.natAbs ≤ 308 then
      let power := Binary64.ofNat (Nat.pow 10 e.natAbs)
      if 0 ≤ e then
        let y := x.mulAbs power
        if y.isInfinite then none else some y
      else some (x.divAbs power)
    else if x.magnitude = 0 then some x
    else if 0 ≤ e then none
    else timesPowerOfTen fuel (x.divAbs (.ofNat (Nat.pow 10 308))) (e + 308)

/-- The real number with the given digits and power of ten. -/
def finishReal (negative : Bool) (significand : Nat) (e : Int) (k : Cursor) : Reading Number :=
  match timesPowerOfTen 6 (.ofNat significand) e with
  | none => k.fail .numberOutOfRange
  | some x => .ok (.real (if negative then x.neg else x), k)

/-- The digits of an exponent. When they no longer fit into thirty-two bits, nothing is given but the
place after the digit that does not fit. -/
def exponentDigits (e : Nat) : List Char → Position → Option Nat × Cursor
  | [], pos => (some e, ⟨[], pos⟩)
  | c :: rest, pos =>
    if c.isDigit then
      let more := e * 10 + (c.toNat - 48)
      if more < Nat.pow 2 31 then exponentDigits more rest (pos.after c) else (none, ⟨rest, pos.after c⟩)
    else (some e, ⟨c :: rest, pos⟩)

/-- The rest of a number from its exponent mark on. -/
def readExponent (negative : Bool) (significand : Nat) (e : Int) (k : Cursor) : Reading Number :=
  let k := k.skip
  let down := k.peek? == some '-'
  let k := if down || k.peek? == some '+' then k.skip else k
  match k.next? with
  | none => k.fail .endOfValue
  | some (c, _) =>
    if !c.isDigit then k.failAhead .badNumber
    else
      match exponentDigits 0 k.rest k.position with
      | (some n, k) => finishReal negative significand (if down then e - n else e + n) k
      | (none, k) =>
        if significand ≠ 0 && !down then k.fail .numberOutOfRange
        else .ok (.real (.ofMagnitude negative 0), k.digits.2)

def startsExponent (k : Cursor) : Bool :=
  k.peek? == some 'e' || k.peek? == some 'E'

/-- The rest of a number from its point on. -/
def readFraction (negative : Bool) (significand : Nat) (e : Int) (k : Cursor) : Reading Number :=
  let (ds, k) := k.skip.digits
  if ds.isEmpty then
    if k.rest.isEmpty then k.failAhead .endOfValue else k.failAhead .badNumber
  else
    let (s, taken) := absorb significand ds
    if startsExponent k then readExponent negative s (e - taken) k
    else finishReal negative s (e - taken) k

/-- An integer, which is a real number if it has no integer type or is a negative zero. -/
def finishInteger (negative : Bool) (significand : Nat) : Number :=
  if !negative then .integer significand
  else if significand = 0 || Nat.pow 2 63 < significand then .real ((Binary64.ofNat significand).neg)
  else .integer (-significand)

/-- A number after its sign. -/
def readNumber (negative : Bool) (k : Cursor) : Reading Number :=
  match k.next? with
  | none => k.fail .endOfValue
  | some (c, after) =>
    if !c.isDigit then k.failAhead .badNumber
    else if c = '0' && after.peek?.any Char.isDigit then after.failAhead .badNumber
    else
      let (ds, k) := k.digits
      let (s, taken) := absorb 0 ds
      let left := ds.length - taken
      if k.peek? == some '.' then readFraction negative s left k
      else if startsExponent k then readExponent negative s left k
      else if left ≠ 0 then finishReal negative s left k
      else .ok (finishInteger negative s, k)

/-! ## Strings -/

def hexValue (c : Char) : Option Nat :=
  if c.isDigit then some (c.toNat - 48)
  else if 'a' ≤ c && c ≤ 'f' then some (c.toNat - 87)
  else if 'A' ≤ c && c ≤ 'F' then some (c.toNat - 55)
  else none

/-- The position four bytes further on, if there are as many. -/
def fourBytesOn : Nat → List Char → Position → Option Position
  | 0, _, pos => some pos
  | _, [], _ => none
  | n + 1, c :: rest, pos =>
    let size := c.utf8Size
    if n + 1 < size then some ⟨pos.line, pos.column + (n + 1)⟩
    else fourBytesOn (n + 1 - size) rest (pos.after c)

/-- Four hexadecimal digits. -/
def readHex (k : Cursor) : Reading Nat :=
  match k.rest with
  | a :: b :: c :: d :: rest =>
    match hexValue a, hexValue b, hexValue c, hexValue d with
    | some a', some b', some c', some d' =>
      .ok (((a' * 16 + b') * 16 + c') * 16 + d', ⟨rest, ⟨k.position.line, k.position.column + 4⟩⟩)
    | _, _, _, _ => refuseHex k
  | _ => refuseHex k
where
  refuseHex (k : Cursor) : Reading Nat :=
    match fourBytesOn 4 k.rest k.position with
    | some pos => .error ⟨.fault .badEscape, some pos⟩
    | none => (k.skipWhile fun _ => true).fail .endOfString

/-- The character of a Unicode escape, after the letter `u`. One beyond sixteen bits is written as
two escapes. -/
def readUnicode (k : Cursor) : Reading Char :=
  match readHex k with
  | .error e => .error e
  | .ok (n, k) =>
    if 0xDC00 ≤ n && n ≤ 0xDFFF then k.fail .loneSurrogate
    else if n < 0xD800 || 0xDBFF < n then .ok (Char.ofNat n, k)
    else
      match expectChar '\\' k >>= expectChar 'u' >>= readHex with
      | .error e => .error e
      | .ok (m, k) =>
        if m < 0xDC00 || 0xDFFF < m then k.fail .loneSurrogate
        else .ok (Char.ofNat ((n - 0xD800) * 1024 + (m - 0xDC00) + 0x10000), k)
where
  expectChar (c : Char) (k : Cursor) : Except Error Cursor :=
    if k.rest.isEmpty then k.fail .endOfString
    else if k.peek? == some c then .ok k.skip
    else k.failAhead .endOfEscape

/-- The characters that an escape of one letter stands for. -/
def shortEscape (c : Char) : Option Char :=
  match c with
  | '"' => some '"'
  | '\\' => some '\\'
  | '/' => some '/'
  | 'b' => some '\x08'
  | 'f' => some '\x0c'
  | 'n' => some '\n'
  | 'r' => some '\r'
  | 't' => some '\t'
  | _ => none

/-- The character of an escape, after the backslash. -/
def readEscape (k : Cursor) : Reading Char :=
  match k.next? with
  | none => k.fail .endOfString
  | some (c, after) =>
    match shortEscape c with
    | some e => .ok (e, after)
    | none => if c = 'u' then readUnicode after else k.failAhead .badEscape

/-- The rest of a string, after its opening quote or any of its characters. Each step reads at least
one character, so the fuel is the number of characters left. -/
def readStringFrom : Nat → List Char → Cursor → Reading String
  | 0, _, k => k.fail .endOfString
  | fuel + 1, done, k =>
    match k.next? with
    | none => k.fail .endOfString
    | some (c, after) =>
      if c = '"' then .ok (String.ofList done.reverse, after)
      else if c = '\\' then
        match readEscape after with
        | .error e => .error e
        | .ok (e, k) => readStringFrom fuel (e :: done) k
      else if c.toNat < 0x20 then after.fail .controlCharacter
      else readStringFrom fuel (c :: done) after

/-- The rest of a string after its opening quote. -/
def readString (k : Cursor) : Reading String :=
  readStringFrom (k.rest.length + 1) [] k

/-! ## Values -/

/-- The remaining letters of a word. -/
def readWord : List Char → Cursor → Except Error Cursor
  | [], k => .ok k
  | c :: rest, k =>
    match k.next? with
    | none => k.fail .endOfValue
    | some (d, after) => if c = d then readWord rest after else k.failAhead .wordExpected

/-- Whether one more item of an array follows. Gives the place where it starts, or the place of the
closing bracket. -/
def moreItems (first : Bool) (k : Cursor) : Reading Bool :=
  let k := k.skipSpace
  match k.peek? with
  | none => k.failAhead .endOfList
  | some c =>
    if c = ']' then .ok (false, k)
    else if first then .ok (true, k)
    else if c = ',' then
      let k := k.skip.skipSpace
      match k.peek? with
      | none => k.failAhead .endOfValue
      | some d => if d = ']' then k.failAhead .trailingComma else .ok (true, k)
    else k.failAhead .listCommaExpected

/-- Whether one more member of an object follows. Gives the place of its key's opening quote, or the
place of the closing brace. -/
def moreMembers (first : Bool) (k : Cursor) : Reading Bool :=
  let k := k.skipSpace
  match k.peek? with
  | none => k.failAhead .endOfObject
  | some c =>
    if c = '\x7d' then .ok (false, k)
    else if first then if c = '"' then .ok (true, k) else k.failAhead .keyExpected
    else if c = ',' then
      let k := k.skip.skipSpace
      match k.peek? with
      | none => k.failAhead .endOfValue
      | some d =>
        if d = '"' then .ok (true, k)
        else if d = '\x7d' then k.failAhead .trailingComma
        else k.failAhead .keyExpected
    else k.failAhead .objectCommaExpected

/-- The colon after a key. -/
def readColon (k : Cursor) : Except Error Cursor :=
  let k := k.skipSpace
  match k.peek? with
  | none => k.failAhead .endOfObject
  | some c => if c = ':' then .ok k.skip else k.failAhead .colonExpected

/-- The items of an array and its closing bracket. Each step reads at least one character. -/
def readItems {α : Type} (item : Cursor → Reading α) : Nat → Bool → Cursor → Except Error (List α × Cursor)
  | 0, _, k => k.failAhead .endOfList
  | fuel + 1, first, k => do
    let (more, k) ← moreItems first k
    if more then
      let (v, k) ← item k
      let (vs, k) ← readItems item fuel false k
      .ok (v :: vs, k)
    else .ok ([], k.skip)

/-- The members of an object and its closing brace. Each step reads at least one character. -/
def readMembers {α : Type} (value : Cursor → Reading α) :
    Nat → Bool → Cursor → Except Error (List (String × α) × Cursor)
  | 0, _, k => k.failAhead .endOfObject
  | fuel + 1, first, k => do
    let (more, k) ← moreMembers first k
    if more then
      let (key, k) ← readString k.skip
      let k ← readColon k
      let (v, k) ← value k
      let (vs, k) ← readMembers value fuel false k
      .ok ((key, v) :: vs, k)
    else .ok ([], k.skip)

/-- The members ordered by key. Of members with one key, the last counts. -/
def objectOf (members : List (String × Value)) : Value :=
  .object (TextMap.ofList members).entries

/-- A value that nests less deep than the given bound. -/
def readValue : Nat → Cursor → Reading Value
  | 0, k => k.failAhead .tooDeep
  | depth + 1, k =>
    let k := k.skipSpace
    match k.peek? with
    | none => k.failAhead .endOfValue
    | some c =>
      if c = 'n' then (readWord "ull".toList k.skip).map (Value.null, ·)
      else if c = 't' then (readWord "rue".toList k.skip).map (Value.bool true, ·)
      else if c = 'f' then (readWord "alse".toList k.skip).map (Value.bool false, ·)
      else if c = '-' then (readNumber true k.skip).map fun (n, k) => (.number n, k)
      else if c.isDigit then (readNumber false k).map fun (n, k) => (.number n, k)
      else if c = '"' then (readString k.skip).map fun (s, k) => (.string s, k)
      else if c = '[' then
        if depth = 0 then k.failAhead .tooDeep
        else
          (readItems (readValue depth) (k.rest.length + 1) true k.skip).map fun (vs, k) => (.array vs, k)
      else if c = '\x7b' then
        if depth = 0 then k.failAhead .tooDeep
        else
          (readMembers (readValue depth) (k.rest.length + 1) true k.skip).map fun (ms, k) =>
            (objectOf ms, k)
      else k.failAhead .valueExpected

/-- The bound on nesting: a text may nest one less deep. -/
def depthLimit : Nat :=
  128

/-- Nothing but space may follow a value. -/
def readEnd {α : Type} (x : α) (k : Cursor) : Except Error α :=
  let k := k.skipSpace
  if k.rest.isEmpty then .ok x else k.failAhead .trailingCharacters

/-- Reads a text that holds one value. -/
def Value.parse (text : String) : Except Error Value := do
  let (v, k) ← readValue depthLimit (.start text.toList)
  readEnd v k

/-! ## Values that are passed over -/

/-- The end of a string whose text is not needed. -/
def passString : Nat → Cursor → Except Error Cursor
  | 0, k => k.fail .endOfString
  | fuel + 1, k =>
    match k.next? with
    | none => k.fail .endOfString
    | some (c, after) =>
      if c = '"' then .ok after
      else if c = '\\' then
        match after.next? with
        | none => after.fail .endOfString
        | some (e, k) =>
          if (shortEscape e).isSome then passString fuel k
          else if e = 'u' then
            match readHex k with
            | .error e => .error e
            | .ok (_, k) => passString fuel k
          else after.failAhead .badEscape
      else if c.toNat < 0x20 then k.fail .controlCharacter
      else passString fuel after

/-- The end of an exponent, from its mark on. -/
def passExponent (k : Cursor) : Except Error Cursor :=
  let k := k.skip
  let k := if k.peek? == some '-' || k.peek? == some '+' then k.skip else k
  if k.peek?.any Char.isDigit then .ok k.digits.2 else k.failAhead .badNumber

/-- The end of a number after its sign. -/
def passNumber (k : Cursor) : Except Error Cursor :=
  if !k.peek?.any Char.isDigit then k.failAhead .badNumber
  else if k.peek? == some '0' && k.skip.peek?.any Char.isDigit then k.skip.failAhead .badNumber
  else
    let k := k.digits.2
    if k.peek? == some '.' then
      let (ds, k) := k.skip.digits
      if ds.isEmpty then k.failAhead .badNumber
      else if startsExponent k then passExponent k
      else .ok k
    else if startsExponent k then passExponent k
    else .ok k

/-- The end of a scalar value that starts with the given character, or nothing at an opening
bracket. -/
def passScalar (c : Char) (k : Cursor) : Option (Except Error Cursor) :=
  if c = 'n' then some (readWord "ull".toList k.skip)
  else if c = 't' then some (readWord "rue".toList k.skip)
  else if c = 'f' then some (readWord "alse".toList k.skip)
  else if c = '-' then some (passNumber k.skip)
  else if c.isDigit then some (passNumber k)
  else if c = '"' then some (passString (k.rest.length + 1) k.skip)
  else if c = '[' || c = '\x7b' then none
  else some (k.failAhead .valueExpected)

/-- The key and the colon of the next member. -/
def passKey (k : Cursor) : Except Error Cursor :=
  let k := k.skipSpace
  match k.peek? with
  | none => k.failAhead .endOfObject
  | some c =>
    if c ≠ '"' then k.failAhead .keyExpected
    else do
      let k ← passString (k.rest.length + 1) k.skip
      readColon k

/-- Passes over closing brackets and a comma. `open` holds the opening brackets not yet closed, the
innermost first; nothing is given when all are closed. `comma` tells whether a comma may stand here. -/
def passClosings : Nat → List Char → Bool → Cursor → Except Error (Option (List Char) × Cursor)
  | 0, _, _, k => .ok (none, k)
  | _, [], _, k => .ok (none, k)
  | fuel + 1, frame :: outer, comma, k =>
    let k := k.skipSpace
    match k.peek? with
    | none => k.failAhead (if frame = '[' then .endOfList else .endOfObject)
    | some c =>
      if c = ',' && comma then .ok (some (frame :: outer), k.skip)
      else if (c = ']' && frame = '[') || (c = '\x7d' && frame = '\x7b') then
        passClosings fuel outer true k.skip
      else if comma then
        k.failAhead (if frame = '[' then .listCommaExpected else .objectCommaExpected)
      else .ok (some (frame :: outer), k)

/-- The end of a value inside the brackets that are open. Each step reads at least one character. -/
def passValueFrom : Nat → List Char → Cursor → Except Error Cursor
  | 0, _, k => k.failAhead .endOfValue
  | fuel + 1, frames, k => do
    let k := k.skipSpace
    match k.peek? with
    | none => k.failAhead .endOfValue
    | some c =>
      let (frames, comma, k) ← match passScalar c k with
        | some result => result.map fun k => (frames, true, k)
        | none => .ok (c :: frames, false, k.skip)
      let (left, k) ← passClosings (frames.length + 1) frames comma k
      match left with
      | none => .ok k
      | some frames =>
        let k ← if frames.head? == some '\x7b' then passKey k else .ok k
        passValueFrom fuel frames k

/-- The end of a value that is not needed. -/
def passValue (k : Cursor) : Except Error Cursor :=
  passValueFrom (k.rest.length + 1) [] k

end CodeContext.Json
