import CodeContext.CSharp.Token
import CodeContext.Text.IdentifierTable
import CodeContext.Text.Lowercase

/-!
# The lexer for C#

The characters of a source are cut into lexemes: tokens, and what stands between tokens (blanks,
comments, directives other than conditions, the text of interpolated strings). At each place a lexeme
is found from the characters that follow and from the interpolated strings that are open there. Every
lexeme has at least one character, so the cutting ends.
-/

namespace CodeContext.CSharp

/-- An interpolated string that is open. -/
structure Quote where
  /-- How many quotes close it. -/
  quotes : Nat
  /-- How many braces open a hole. -/
  braces : Nat
  /-- Whether a backslash stands for itself and lines may end in the text. -/
  verbatim : Bool
  /-- Whether the place is in a hole, and then how many brackets are open in it. -/
  hole : Option Nat
  /-- How many conditions in the hole wait for their colon. -/
  conditions : Nat
  deriving DecidableEq

/-- What is found at a place: the count of characters after the first, the symbol if it is a token, and
the interpolated strings that are open after it, the innermost first. -/
structure Lexeme where
  more : Nat
  symbol : Option Symbol
  quotes : List Quote

namespace Lexer

/-! ## Characters -/

def isSpace (c : Char) : Bool :=
  c == ' ' || (9 ≤ c.toNat && c.toNat ≤ 13) || c == '\u00A0' || c == '\uFEFF' || c == '\u3000'

def isLineEnd (c : Char) : Bool :=
  c == '\n' || c == '\r'

def isWordStart (c : Char) : Bool :=
  c.isAlpha || c == '_' || (127 < c.toNat && Text.inRanges Text.identifierStartRanges c.toNat)

def isWordPart (c : Char) : Bool :=
  isWordStart c || c.isDigit || (127 < c.toNat && Text.inRanges Text.identifierMoreRanges c.toNat)

def isHexDigit (c : Char) : Bool :=
  c.isDigit || ('a' ≤ c && c ≤ 'f') || ('A' ≤ c && c ≤ 'F')

/-- The length of the longest run of characters of a class. -/
def runLength (p : Char → Bool) (cs : List Char) : Nat :=
  (cs.takeWhile p).length

/-! ## Words and numbers -/

/-- The length of a Unicode escape as part of a word, zero if there is none. -/
def escapeLength : List Char → Nat
  | '\\' :: 'u' :: rest => if 4 ≤ runLength isHexDigit (rest.take 4) then 6 else 0
  | '\\' :: 'U' :: rest => if 8 ≤ runLength isHexDigit (rest.take 8) then 10 else 0
  | _ => 0

/-- The length of the rest of a word. -/
def wordTail : Nat → List Char → Nat
  | 0, _ => 0
  | _, [] => 0
  | fuel + 1, c :: rest =>
    if isWordPart c then 1 + wordTail fuel rest
    else
      match escapeLength (c :: rest) with
      | 0 => 0
      | n => n + wordTail fuel ((c :: rest).drop n)

/-- The length of a word, zero if none starts here. -/
def wordLength (cs : List Char) : Nat :=
  match cs with
  | [] => 0
  | c :: rest =>
    if isWordStart c then 1 + wordTail rest.length rest
    else
      match escapeLength cs with
      | 0 => 0
      | n => n + wordTail cs.length (cs.drop n)

def isDigitPart (c : Char) : Bool :=
  c.isDigit || c == '_'

/-- The length of an exponent, zero if there is none. -/
def exponentLength : List Char → Nat
  | mark :: rest =>
    if mark == 'e' || mark == 'E' then
      match rest with
      | [] => 0
      | s :: more =>
        if s.isDigit then 1 + runLength isDigitPart rest
        else if (s == '+' || s == '-') && more.head?.any Char.isDigit then
          2 + runLength isDigitPart more
        else 0
    else 0
  | [] => 0

def isIntegerSuffix (c : Char) : Bool :=
  c == 'u' || c == 'U' || c == 'l' || c == 'L'

def isRealSuffix (c : Char) : Bool :=
  c == 'f' || c == 'F' || c == 'd' || c == 'D' || c == 'm' || c == 'M'

/-- The length of a number. The text starts with a digit, or with a point and a digit. -/
def numberLength (cs : List Char) : Nat :=
  let base :=
    match cs with
    | '0' :: x :: rest =>
      if x == 'x' || x == 'X' then runLength (fun c => isHexDigit c || c == '_') rest
      else if x == 'b' || x == 'B' then runLength (fun c => c == '0' || c == '1' || c == '_') rest
      else 0
    | _ => 0
  if base ≠ 0 then 2 + base + runLength isIntegerSuffix ((cs.drop (2 + base)).take 2)
  else
    let whole := runLength isDigitPart cs
    let rest := cs.drop whole
    let places :=
      match rest with
      | '.' :: d :: more => if d.isDigit then 2 + runLength isDigitPart more else 0
      | _ => 0
    let rest := rest.drop places
    let power := exponentLength rest
    let rest := rest.drop power
    let suffix :=
      if rest.head?.any isRealSuffix then 1
      else if places = 0 && power = 0 then runLength isIntegerSuffix (rest.take 2)
      else 0
    whole + places + power + suffix

/-! ## Strings and characters -/

/-- The length of an escape in a string, its backslash included, zero if it is none. -/
def stringEscape : List Char → Nat
  | '\\' :: 'x' :: rest =>
    let n := runLength isHexDigit (rest.take 4)
    if n = 0 then 0 else 2 + n
  | '\\' :: c :: rest =>
    if "abefnrtv'\"\\?0".toList.contains c then 2 else escapeLength ('\\' :: c :: rest)
  | _ => 0

/-- The length of the suffix that makes a string one of bytes. -/
def byteSuffix : List Char → Nat
  | u :: '8' :: _ => if u == 'u' || u == 'U' then 2 else 0
  | _ => 0

/-- The length of the rest of a string on one line, its closing quote and suffix included. Nothing is
given if it does not end. -/
def plainTail : Nat → List Char → Option Nat
  | 0, _ => none
  | _, [] => none
  | fuel + 1, c :: rest =>
    if c == '"' then some (1 + byteSuffix rest)
    else if c == '\n' then none
    else if c == '\\' then
      match stringEscape (c :: rest) with
      | 0 => none
      | n => (plainTail fuel ((c :: rest).drop n)).map (· + n)
    else (plainTail fuel rest).map (· + 1)

/-- The length of the rest of a verbatim string, in which a quote is written twice. -/
def verbatimTail : Nat → List Char → Option Nat
  | 0, _ => none
  | _, [] => none
  | fuel + 1, c :: rest =>
    if c == '"' then
      if rest.head? == some '"' then (verbatimTail fuel (rest.drop 1)).map (· + 2)
      else some (1 + byteSuffix rest)
    else (verbatimTail fuel rest).map (· + 1)

/-- The length of the rest of a raw string, which ends with as many quotes as it starts with. -/
def rawTail (quotes : Nat) : Nat → List Char → Option Nat
  | 0, _ => none
  | _, [] => none
  | fuel + 1, c :: rest =>
    let n := runLength (· == '"') (c :: rest)
    if n = 0 then (rawTail quotes fuel rest).map (· + 1)
    else if quotes ≤ n then some (n + byteSuffix ((c :: rest).drop n))
    else (rawTail quotes fuel ((c :: rest).drop n)).map (· + n)

/-- The length of the rest of a character literal after its opening quote. -/
def characterTail (cs : List Char) : Option Nat :=
  match stringEscape cs with
  | 0 =>
    match cs with
    | c :: '\'' :: _ => if c == '\'' || c == '\\' || c == '\n' then none else some 2
    | _ => none
  | n => if (cs.drop n).head? == some '\'' then some (n + 1) else none

/-- The length of the rest of a comment between stars, after its opening. -/
def commentTail : List Char → Option Nat
  | '*' :: '/' :: _ => some 2
  | _ :: rest => (commentTail rest).map (· + 1)
  | [] => none

/-! ## Lexemes -/

/-- The marks of more than one character, the longer ones first. A closing angle bracket is always a
mark by itself. -/
def longMarks : List String :=
  ["??=", "<<=", "=>", "==", "!=", "<=", "<<", "&&", "||", "++", "--", "+=", "-=", "*=", "/=", "%=",
    "&=", "|=", "^=", "->", "??", "::", ".."]

def shortMarks : List Char :=
  ['\x7b', '\x7d', '(', ')', '[', ']', ';', ',', '.', ':', '?', '+', '-', '*', '/', '%', '&', '|',
    '^', '!', '~', '=', '<', '>']

/-- A token of `n` characters. -/
def token (n : Nat) (s : Symbol) (quotes : List Quote) : Lexeme :=
  ⟨n - 1, some s, quotes⟩

/-- A lexeme of `n` characters that is no token. -/
def gap (n : Nat) (quotes : List Quote) : Lexeme :=
  ⟨n - 1, none, quotes⟩

/-- A token whose length is known only if it is well formed. -/
def tokenOr (n : Option Nat) (s : Symbol) (quotes : List Quote) : Lexeme :=
  match n with
  | some n => token n s quotes
  | none => token 1 .invalid quotes

/-- The directives that stand for nothing. -/
def plainDirectives : List String :=
  ["region", "endregion", "line", "pragma", "nullable", "error", "warning", "define", "undef"]

/-- The length of a condition: the rest of the line up to a comment. -/
def conditionLength : List Char → Nat
  | [] => 0
  | '/' :: '/' :: _ => 0
  | c :: rest => if isLineEnd c then 0 else 1 + conditionLength rest

/-- The lexeme of a directive. `cs` follows the number sign. -/
def directive (cs : List Char) (quotes : List Quote) : Lexeme :=
  let blanks := runLength (fun c => c == ' ' || c == '\t') cs
  let word := (cs.drop blanks).takeWhile isWordPart
  let n := 1 + blanks + word.length
  let rest := cs.drop (blanks + word.length)
  let name := String.ofList word
  if name = "if" || name = "elif" then
    let size := conditionLength rest
    let symbol := Symbol.directive (if name = "if" then .ifStart else .elseIf)
    token (n + size) (if (rest.take size).all isSpace then .invalid else symbol) quotes
  else if name = "else" then token n (.directive .elsePart) quotes
  else if name = "endif" then token n (.directive .endIf) quotes
  else if plainDirectives.contains name then gap (n + runLength (!isLineEnd ·) rest) quotes
  else token 1 .invalid quotes

/-- The start of an interpolated string: dollars and at most one at-sign, and then quotes. -/
def interpolation (cs : List Char) (quotes : List Quote) : Option Lexeme :=
  let signs := cs.takeWhile fun c => c == '$' || c == '@'
  let dollars := signs.count '$'
  let n := runLength (· == '"') (cs.drop signs.length)
  let ats := signs.length - dollars
  if dollars = 0 || n = 0 || 1 < ats then none
  else if ats = 1 then
    if dollars = 1 then
      some (token (signs.length + 1) .stringStart (⟨1, 1, true, none, 0⟩ :: quotes))
    else none
  else if 3 ≤ n then some (token (dollars + n) .stringStart (⟨n, dollars, true, none, 0⟩ :: quotes))
  else if dollars = 1 then some (token 2 .stringStart (⟨1, 1, false, none, 0⟩ :: quotes))
  else none

/-- The lexeme in the text of an interpolated string. -/
def inText (q : Quote) (outer : List Quote) (cs : List Char) : Lexeme :=
  let here := q :: outer
  match cs with
  | [] => gap 1 here
  | c :: rest =>
    let quotes := runLength (· == '"') cs
    let braces := runLength (· == '\x7b') cs
    if c == '"' then
      if 3 ≤ q.quotes then
        if q.quotes ≤ quotes then token (quotes + byteSuffix (cs.drop quotes)) .stringEnd outer
        else gap quotes here
      else if q.verbatim && 2 ≤ quotes then gap 2 here
      else token (1 + byteSuffix rest) .stringEnd outer
    else if c == '\x7b' then
      if 3 ≤ q.quotes then
        if q.braces ≤ braces then token braces .holeStart (⟨q.quotes, q.braces, q.verbatim, some 0, 0⟩ :: outer)
        else gap braces here
      else if 2 ≤ braces then gap 2 here
      else token 1 .holeStart (⟨q.quotes, q.braces, q.verbatim, some 0, 0⟩ :: outer)
    else if q.verbatim then gap 1 here
    else if c == '\n' then token 1 .invalid outer
    else if c == '\\' then
      match stringEscape cs with
      | 0 => token 1 .invalid here
      | n => gap n here
    else gap 1 here

/-- The length of a format: up to the brace that closes the hole or the quote that ends the text. -/
def formatLength (cs : List Char) : Nat :=
  runLength (fun c => c != '\x7d' && c != '"' && c != '\n') cs

/-- How a mark changes the innermost open string, if the place is in a hole of it. -/
def afterMark (m : String) (quotes : List Quote) : List Quote :=
  match quotes with
  | [] => []
  | q :: outer =>
    match q.hole with
    | none => quotes
    | some depth =>
      if m = "(" || m = "[" || m = "\x7b" then { q with hole := some (depth + 1) } :: outer
      else if m = ")" || m = "]" || m = "\x7d" then { q with hole := some (depth - 1) } :: outer
      else if m = "?" && depth = 0 then { q with conditions := q.conditions + 1 } :: outer
      else if m = ":" && depth = 0 then { q with conditions := q.conditions - 1 } :: outer
      else quotes

/-- Whether a question mark here is part of a conditional access. -/
def isAccess : List Char → Bool
  | '?' :: '.' :: d :: _ => !d.isDigit
  | '?' :: '[' :: _ => true
  | _ => false

/-- The lexeme at a mark. -/
def markAt (cs : List Char) (quotes : List Quote) : Lexeme :=
  match longMarks.find? fun m => m.toList.isPrefixOf cs with
  | some m => token m.length (.mark m) quotes
  | none =>
    match cs with
    | [] => token 1 .invalid quotes
    | c :: _ =>
      if shortMarks.contains c then
        let m := String.singleton c
        token 1 (.mark m) (if isAccess cs then quotes else afterMark m quotes)
      else token 1 .invalid quotes

/-- The lexeme where code is expected. -/
def inCode (cs : List Char) (quotes : List Quote) : Lexeme :=
  match cs with
  | [] => gap 1 quotes
  | c :: rest =>
    if isSpace c then gap 1 quotes
    else if c == '/' && rest.head? == some '/' then gap (runLength (!isLineEnd ·) cs) quotes
    else if c == '/' && rest.head? == some '*' then
      match commentTail (rest.drop 1) with
      | some n => gap (2 + n) quotes
      | none => token 2 .invalid quotes
    else if c == '#' then directive rest quotes
    else if c.isDigit || (c == '.' && rest.head?.any Char.isDigit) then
      token (numberLength cs) .number quotes
    else if c == '"' then
      let n := runLength (· == '"') cs
      if 3 ≤ n then tokenOr ((rawTail n cs.length (cs.drop n)).map (· + n)) .string quotes
      else tokenOr ((plainTail cs.length rest).map (· + 1)) .string quotes
    else if c == '\'' then tokenOr ((characterTail rest).map (· + 1)) .character quotes
    else if c == '@' && rest.head? == some '"' then
      tokenOr ((verbatimTail cs.length (rest.drop 1)).map (· + 2)) .string quotes
    else if c == '@' && 0 < wordLength rest then
      let n := 1 + wordLength rest
      token n (.word (String.ofList (cs.take n))) quotes
    else if c == '$' || c == '@' then (interpolation cs quotes).getD (token 1 .invalid quotes)
    else
      match wordLength cs with
      | 0 => markAt cs quotes
      | n => token n (.word (String.ofList (cs.take n))) quotes

/-- The lexeme at a place. -/
def lexeme (quotes : List Quote) (cs : List Char) : Lexeme :=
  match quotes with
  | [] => inCode cs []
  | q :: outer =>
    match q.hole with
    | none => inText q outer cs
    | some depth =>
      let closed : List Quote := ⟨q.quotes, q.braces, q.verbatim, none, 0⟩ :: outer
      match cs with
      | '\x7d' :: _ =>
        if depth = 0 then
          if q.braces ≤ runLength (· == '\x7d') cs then token q.braces .holeEnd closed
          else token 1 .invalid closed
        else inCode cs quotes
      | ':' :: rest =>
        if depth = 0 && q.conditions = 0 && rest.head? != some ':' then
          token (formatLength cs) .format quotes
        else inCode cs quotes
      | _ => inCode cs quotes

/-- Cuts the text from a place on into tokens. `line` is the line of the place. -/
def tokensFrom (quotes : List Quote) (glued : Bool) (place line : Nat) (cs : List Char) : List Token :=
  match cs with
  | [] => []
  | c :: rest =>
    let found := lexeme quotes (c :: rest)
    let taken := (c :: rest).take (found.more + 1)
    let stop := place + taken.length
    let lastLine := line + taken.count '\n'
    let more := tokensFrom found.quotes found.symbol.isSome stop lastLine (rest.drop found.more)
    match found.symbol with
    | none => more
    | some s => ⟨s, glued, place, stop, line, lastLine⟩ :: more
termination_by cs.length
decreasing_by simp only [List.length_drop, List.length_cons]; omega

end Lexer

/-- The tokens of a source. A first line that starts with `#!` is passed over. -/
def tokens (source : List Char) : List Token :=
  match source with
  | '#' :: '!' :: rest =>
    let line := '#' :: '!' :: rest.takeWhile (· != '\n')
    Lexer.tokensFrom [] false line.length 1 (rest.dropWhile (· != '\n'))
  | _ => Lexer.tokensFrom [] false 0 1 source

end CodeContext.CSharp
