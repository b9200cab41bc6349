import CodeContext.Json.Error

/-!
# A place in a JSON text

A cursor holds the characters that are still to be read and the position reached. Errors are reported
either at the place reached or one byte further, where the offending character ends its first byte.
-/

namespace CodeContext.Json

structure Cursor where
  rest : List Char
  position : Position

/-- What a reading step gives: a result and the place after it, or the first error. -/
abbrev Reading (α : Type) :=
  Except Error (α × Cursor)

namespace Position

/-- The position after a character. -/
def after (c : Char) (p : Position) : Position :=
  if c = '\n' then ⟨p.line + 1, 0⟩ else ⟨p.line, p.column + c.utf8Size⟩

end Position

namespace Cursor

def start (text : List Char) : Cursor :=
  ⟨text, ⟨1, 0⟩⟩

/-- The character at the place and the place after it. -/
def next? (k : Cursor) : Option (Char × Cursor) :=
  match k.rest with
  | [] => none
  | c :: rest => some (c, ⟨rest, k.position.after c⟩)

def peek? (k : Cursor) : Option Char :=
  k.rest.head?

/-- The place after the next character, if there is one. -/
def skip (k : Cursor) : Cursor :=
  match k.rest with
  | [] => k
  | c :: rest => ⟨rest, k.position.after c⟩

/-- The position one byte further on. -/
def ahead (k : Cursor) : Position :=
  match k.rest with
  | [] => k.position
  | c :: _ => if c = '\n' then ⟨k.position.line + 1, 0⟩ else ⟨k.position.line, k.position.column + 1⟩

/-- An error at the place reached. -/
def fail {α : Type} (k : Cursor) (f : Fault) : Except Error α :=
  .error ⟨.fault f, some k.position⟩

/-- An error at the character that is still to be read. -/
def failAhead {α : Type} (k : Cursor) (f : Fault) : Except Error α :=
  .error ⟨.fault f, some k.ahead⟩

/-- A problem with a value that has just been read. -/
def refuse {α : Type} (k : Cursor) (p : Problem) : Except Error α :=
  .error ⟨p, some k.position⟩

/-- The four characters that may stand between the tokens of a JSON text. -/
def isSpace (c : Char) : Bool :=
  c == ' ' || c == '\n' || c == '\t' || c == '\r'

def spanFrom (p : Char → Bool) : List Char → Position → Cursor
  | [], pos => ⟨[], pos⟩
  | c :: rest, pos => if p c then spanFrom p rest (pos.after c) else ⟨c :: rest, pos⟩

/-- The place after the longest run of characters of a class. -/
def skipWhile (p : Char → Bool) (k : Cursor) : Cursor :=
  spanFrom p k.rest k.position

def skipSpace (k : Cursor) : Cursor :=
  k.skipWhile isSpace

/-- The longest run of digits, and the place after it. -/
def digits (k : Cursor) : List Char × Cursor :=
  (k.rest.takeWhile Char.isDigit, k.skipWhile Char.isDigit)

end Cursor

end CodeContext.Json
