import CodeContext.Text.CaseTable

/-!
# Lowercase text

The full Unicode lowercase of a text. Every character has its own mapping, except that a capital
sigma at the end of a word becomes the final sigma, and a capital I with a dot becomes two characters.
-/

namespace CodeContext.Text

def inRanges (ranges : List (Nat × Nat)) (n : Nat) : Bool :=
  ranges.any fun r => r.1 ≤ n && n ≤ r.2

/-- Letters with a case. -/
def isCased (c : Char) : Bool :=
  inRanges casedRanges c.toNat

/-- Characters that are skipped in looking for the letters around a sigma. -/
def isCaseIgnorable (c : Char) : Bool :=
  inRanges caseIgnorableRanges c.toNat

/-- The lowercase of a single character outside ASCII by the table, or the character itself. -/
def lowerByTable (c : Char) : Char :=
  let n := c.toNat
  match capitalRuns.find? fun r => r.first ≤ n && n ≤ r.last && (n - r.first) % r.stride == 0 with
  | some r => Char.ofNat ((n : Int) + r.shift).toNat
  | none => c

/-- The lowercase of a single character, where it stands in no word. -/
def lowerChar (c : Char) : List Char :=
  if c.toNat < 128 then [if 'A' ≤ c && c ≤ 'Z' then Char.ofNat (c.toNat + 32) else c]
  else if c = 'İ' then ['i', '\u0307']
  else [lowerByTable c]

/-- Whether the nearest character that is not case-ignorable is a letter with a case. -/
def nextIsCased (cs : List Char) : Bool :=
  match cs.dropWhile isCaseIgnorable with
  | [] => false
  | c :: _ => isCased c

/-- The lowercase of a text, whose characters before it are `before`, the nearest first. -/
def lowerFrom (before : List Char) : List Char → List Char
  | [] => []
  | c :: rest =>
    let here :=
      if c = 'Σ' then [if nextIsCased before && !nextIsCased rest then 'ς' else 'σ'] else lowerChar c
    here ++ lowerFrom (c :: before) rest

def lowercase (cs : List Char) : List Char :=
  lowerFrom [] cs

/-- The lowercase of an ASCII letter, and every other character itself. -/
def lowerAscii (c : Char) : Char :=
  if 'A' ≤ c && c ≤ 'Z' then Char.ofNat (c.toNat + 32) else c

/-- Equality up to the case of ASCII letters. -/
def sameIgnoringCase (a b : List Char) : Bool :=
  a.map lowerAscii == b.map lowerAscii

/-- Whether `needle` stands somewhere in the text. -/
def occursIn (needle : List Char) : List Char → Bool
  | [] => needle.isEmpty
  | c :: rest => needle.isPrefixOf (c :: rest) || occursIn needle rest

end CodeContext.Text
