/-!
# Globs

A glob says which paths it matches: `?` stands for one byte and `*` for any number, `**` between slashes
for any number of directories, brackets for one of some characters, and braces for one of several
globs. Only `**` crosses a slash. A bracket that is not closed stands for itself; braces that are not
balanced, a range that goes down and a backslash at the end make no glob.
-/

namespace CodeContext

/-- What runs of bytes are matched with. -/
inductive Pattern where
  | empty
  | byte (p : UInt8 → Bool)
  /-- Any number of bytes of a class. -/
  | run (p : UInt8 → Bool)
  | seq (a b : Pattern)
  | alt (a b : Pattern)

namespace Pattern

/-- What is left after runs of bytes of a class, the shortest run first. -/
def afterRuns (p : UInt8 → Bool) : List UInt8 → List (List UInt8)
  | [] => [[]]
  | b :: rest => (b :: rest) :: (if p b then afterRuns p rest else [])

/-- What can be left of a text after the pattern. -/
def rests : Pattern → List UInt8 → List (List UInt8)
  | .empty, s => [s]
  | .byte p, s =>
    match s with
    | [] => []
    | b :: rest => if p b then [rest] else []
  | .run p, s => afterRuns p s
  | .seq a b, s => ((a.rests s).flatMap b.rests).eraseDups
  | .alt a b, s => a.rests s ++ b.rests s

/-- Whether the pattern matches the whole text. -/
def accepts (p : Pattern) (s : List UInt8) : Bool :=
  (p.rests s).any List.isEmpty

def all : List Pattern → Pattern
  | [] => .empty
  | p :: rest => .seq p (all rest)

/-- One of several patterns. -/
def choice : List Pattern → Pattern
  | [] => .empty
  | [p] => p
  | p :: rest => .alt p (choice rest)

def slash : Pattern :=
  .byte (· == 47)

def anything : Pattern :=
  .run fun _ => true

def bytes (bs : List UInt8) : Pattern :=
  all (bs.map fun b => .byte (· == b))

end Pattern

namespace Glob

/-- A part of a glob. -/
inductive Piece where
  | literal (c : Char)
  | any
  | star
  /-- A leading `**`. -/
  | deepStart
  /-- A `**` between slashes. -/
  | deepMiddle
  /-- A `**` after the last slash. -/
  | deepEnd
  | class_ (negated : Bool) (ranges : List (Char × Char))
  | choice (branches : List (List Piece))

/-- The bytes of a character. -/
def charBytes (c : Char) : List UInt8 :=
  String.utf8EncodeChar c

/-- The byte ranges of a range of characters. Characters of several bytes stand for their bytes. -/
def byteRanges (r : Char × Char) : List (UInt8 × UInt8) :=
  let low := charBytes r.1
  let high := charBytes r.2
  if r.1 = r.2 then low.map fun b => (b, b)
  else
    low.dropLast.map (fun b => (b, b)) ++ [(low.getLast?.getD 0, high.head?.getD 0)] ++
      (high.drop 1).map fun b => (b, b)

def classMatches (negated : Bool) (ranges : List (Char × Char)) (b : UInt8) : Bool :=
  let found := (ranges.flatMap byteRanges).any fun r => r.1 ≤ b && b ≤ r.2
  found != negated

def notSlash (b : UInt8) : Bool :=
  b != 47

mutual

/-- The pattern of a part. -/
def Piece.pattern : Piece → Pattern
  | .literal c => .bytes (charBytes c)
  | .any => .byte notSlash
  | .star => .run notSlash
  | .deepStart => .alt .empty (.alt .slash (.seq .anything .slash))
  | .deepMiddle => .alt .slash (.seq .slash (.seq .anything .slash))
  | .deepEnd => .seq .slash .anything
  | .class_ negated ranges => .byte (classMatches negated ranges)
  | .choice branches => .choice (branchPatterns branches)

/-- The pattern of parts in a row. -/
def patternOf : List Piece → Pattern
  | [] => .empty
  | p :: rest => .seq p.pattern (patternOf rest)

/-- The patterns of the branches that are not empty. -/
def branchPatterns : List (List Piece) → List Pattern
  | [] => []
  | [] :: rest => branchPatterns rest
  | branch :: rest => patternOf branch :: branchPatterns rest

end

/-- Braces that are open: the branches that are complete, and the parts of the last one in reverse. -/
structure Branches where
  done : List (List Piece)
  current : List Piece

/-- How far a glob is read: the open braces, the innermost first and the whole glob last. -/
abbrev Progress := List Branches

namespace Progress

def push (piece : Piece) : Progress → Progress
  | [] => []
  | b :: outer => ⟨b.done, piece :: b.current⟩ :: outer

/-- Whether the place is inside of braces. -/
def inBraces (s : Progress) : Bool :=
  1 < s.length

def isStart : Progress → Bool
  | [] => true
  | b :: _ => b.current.isEmpty

end Progress

/-- The ranges of a class after its opening bracket, and what follows it. `first` holds at the first
character, and `inRange` after a hyphen. -/
def classRanges : List Char → Bool → Bool → List (Char × Char) →
    Option (Except Unit (List (Char × Char) × List Char))
  | [], _, _, _ => none
  | c :: rest, first, inRange, ranges =>
    if c = ']' && !first then
      some (.ok ((if inRange then ('-', '-') :: ranges else ranges), rest))
    else if inRange then
      match ranges with
      | (low, _) :: others =>
        if c < low then some (.error ()) else classRanges rest false false ((low, c) :: others)
      | [] => classRanges rest false false [(c, c)]
    else if c = '-' && !first then classRanges rest false true ranges
    else classRanges rest false false ((c, c) :: ranges)

/-- Two stars that follow `before` and are followed by `after`: the new progress and what is left. -/
def twoStars (s : Progress) (before : Option Char) (after : List Char) : Progress × List Char :=
  let plain := ((s.push .star).push .star, after)
  let slashNext := after.head? == some '/'
  if s.isStart then
    if after.isEmpty || slashNext then (s.push .deepStart, after.drop 1) else plain
  else if before != some '/' && !(s.inBraces && (before == some ',' || before == some '\x7b')) then plain
  else
    let ends := after.isEmpty || (s.inBraces && (after.head? == some ',' || after.head? == some '\x7d'))
    if !ends && !slashNext then plain
    else
      match s with
      | [] => plain
      | b :: outer =>
        let rest := if ends then after else after.drop 1
        let replaced : List Piece :=
          match b.current with
          | .deepStart :: more => .deepStart :: more
          | .deepEnd :: more => .deepEnd :: more
          | _ :: more => (if ends then .deepEnd else .deepMiddle) :: more
          | [] => []
        (⟨b.done, replaced⟩ :: outer, rest)

/-- Reads a glob from a place on. `before` is the character before the place, and `brackets` tells
whether an opening bracket still starts a class. Each step reads at least one character. -/
def readFrom : Nat → Bool → Option Char → Progress → List Char → Option (List Piece)
  | 0, _, _, _, _ => none
  | fuel + 1, brackets, before, s, cs =>
    match cs with
    | [] =>
      match s with
      | [⟨[], current⟩] => some current.reverse
      | _ => none
    | '?' :: rest => readFrom fuel brackets (some '?') (s.push .any) rest
    | '*' :: '*' :: rest =>
      let (s, left) := twoStars s before rest
      let last := if left.length < rest.length then '/' else '*'
      readFrom fuel brackets (some last) s left
    | '*' :: rest => readFrom fuel brackets (some '*') (s.push .star) rest
    | '\\' :: rest =>
      match rest with
      | [] => none
      | c :: rest => readFrom fuel brackets (some c) (s.push (.literal c)) rest
    | '\x7b' :: rest => readFrom fuel brackets (some '\x7b') (⟨[], []⟩ :: s) rest
    | '\x7d' :: rest =>
      match s with
      | b :: outer :: more =>
        let branches := (b.current.reverse :: b.done).reverse
        readFrom fuel brackets (some '\x7d') (Progress.push (.choice branches) (outer :: more)) rest
      | _ => none
    | ',' :: rest =>
      match s with
      | b :: outer :: more =>
        readFrom fuel brackets (some ',') (⟨b.current.reverse :: b.done, []⟩ :: outer :: more) rest
      | _ => readFrom fuel brackets (some ',') (s.push (.literal ',')) rest
    | c :: rest =>
      if c = '[' && brackets then
        let negated := rest.head? == some '!' || rest.head? == some '^'
        match classRanges (if negated then rest.drop 1 else rest) true false [] with
        | none => readFrom fuel false (some '[') (s.push (.literal '[')) rest
        | some (.error _) => none
        | some (.ok (ranges, rest)) =>
          readFrom fuel brackets (some ']') (s.push (.class_ negated ranges)) rest
      else readFrom fuel brackets (some c) (s.push (.literal c)) rest

/-- The parts of a glob. -/
def pieces? (text : List Char) : Option (List Piece) :=
  readFrom (text.length + 1) true none [⟨[], []⟩] text

/-- The pattern of a glob. A glob that is only `**` matches every path. -/
def pattern? (text : List Char) : Option Pattern :=
  match pieces? text with
  | none => none
  | some [.deepStart] => some .anything
  | some pieces => some (patternOf pieces)

end Glob

end CodeContext
