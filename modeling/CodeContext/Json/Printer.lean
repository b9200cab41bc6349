import CodeContext.Json.Value
import CodeContext.Text.Quoted

/-!
# Writing JSON

A value is written without any space, or over several lines with each level two spaces further in.
In strings only quotes, backslashes and controls are escaped, so a line feed never stands in a string.
-/

namespace CodeContext.Json

/-- One character of a string. -/
def escapeChar (c : Char) : List Char :=
  if c = '"' then ['\\', '"']
  else if c = '\\' then ['\\', '\\']
  else if c = '\n' then ['\\', 'n']
  else if c = '\r' then ['\\', 'r']
  else if c = '\t' then ['\\', 't']
  else if c = '\x08' then ['\\', 'b']
  else if c = '\x0c' then ['\\', 'f']
  else if c.toNat < 0x20 then
    ['\\', 'u', '0', '0', Nat.digitChar (c.toNat / 16), Nat.digitChar (c.toNat % 16)]
  else [c]

def writeString (s : String) : List Char :=
  '"' :: s.toList.flatMap escapeChar ++ ['"']

def writeNumber : Number → List Char
  | .integer n => (toString n).toList
  | .real x => x.shortestText

namespace Value

mutual

/-- The text of a value, with no space between its tokens. -/
def write : Value → List Char
  | .null => ['n', 'u', 'l', 'l']
  | .bool true => ['t', 'r', 'u', 'e']
  | .bool false => ['f', 'a', 'l', 's', 'e']
  | .number n => writeNumber n
  | .string s => writeString s
  | .array [] => ['[', ']']
  | .array (v :: rest) => '[' :: write v ++ writeItems rest
  | .object [] => ['\x7b', '\x7d']
  | .object ((key, v) :: rest) => '\x7b' :: writeString key ++ ':' :: write v ++ writeMembers rest

def writeItems : List Value → List Char
  | [] => [']']
  | v :: rest => ',' :: write v ++ writeItems rest

def writeMembers : List (String × Value) → List Char
  | [] => ['\x7d']
  | (key, v) :: rest => ',' :: writeString key ++ ':' :: write v ++ writeMembers rest

end

/-- The text of a value on one line. -/
def compact (v : Value) : String :=
  String.ofList v.write

/-- A line feed and two spaces for each level. -/
def lineStart (level : Nat) : List Char :=
  '\n' :: List.replicate (2 * level) ' '

mutual

/-- The text of a value over several lines, at a level. -/
def writeAt (level : Nat) : Value → List Char
  | .array (v :: rest) => '[' :: lineStart (level + 1) ++ writeAt (level + 1) v ++ itemsAt level rest
  | .object ((key, v) :: rest) =>
    '\x7b' :: lineStart (level + 1) ++ writeString key ++ ':' :: ' ' :: writeAt (level + 1) v ++
      membersAt level rest
  | .null => ['n', 'u', 'l', 'l']
  | .bool b => write (.bool b)
  | .number n => writeNumber n
  | .string s => writeString s
  | .array [] => ['[', ']']
  | .object [] => ['\x7b', '\x7d']

def itemsAt (level : Nat) : List Value → List Char
  | [] => lineStart level ++ [']']
  | v :: rest => ',' :: lineStart (level + 1) ++ writeAt (level + 1) v ++ itemsAt level rest

def membersAt (level : Nat) : List (String × Value) → List Char
  | [] => lineStart level ++ ['\x7d']
  | (key, v) :: rest =>
    ',' :: lineStart (level + 1) ++ writeString key ++ ':' :: ' ' :: writeAt (level + 1) v ++
      membersAt level rest

end

/-- The text of a value over several lines. -/
def pretty (v : Value) : String :=
  String.ofList (v.writeAt 0)

end Value

end CodeContext.Json
