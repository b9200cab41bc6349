import CodeContext.Text.Lowercase
import CodeContext.Text.VisibleTable

/-!
# Quoted text in messages

A text between double quotes as messages show it: quotes, backslashes and the usual controls have
short escapes, and any other character that cannot be seen is written by its code point.
-/

namespace CodeContext.Text

/-- The hexadecimal digits of a number, in lower case. -/
def hexDigits (n : Nat) : List Char :=
  Nat.toDigits 16 n

/-- One character of a quoted text. -/
def quotedChar (c : Char) : List Char :=
  if c = '"' then ['\\', '"']
  else if c = '\\' then ['\\', '\\']
  else if c = '\n' then ['\\', 'n']
  else if c = '\r' then ['\\', 'r']
  else if c = '\t' then ['\\', 't']
  else if c.toNat = 0 then ['\\', '0']
  else if inRanges invisibleRanges c.toNat || inRanges markRanges c.toNat then
    ['\\', 'u', '\x7b'] ++ hexDigits c.toNat ++ ['\x7d']
  else [c]

def quoted (s : String) : String :=
  String.ofList ('"' :: s.toList.flatMap quotedChar ++ ['"'])

end CodeContext.Text
