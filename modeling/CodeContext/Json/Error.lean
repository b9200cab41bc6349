import CodeContext.Json.Value
import CodeContext.Text.Quoted

/-!
# What can be wrong with a JSON text

A text can break the grammar, or hold a value that does not fit what is asked for. A problem found in
a text has a position there: the line from one, and the count of bytes before it on the line.
-/

namespace CodeContext.Json

/-- Ways in which a text is no JSON. -/
inductive Fault where
  | endOfList
  | endOfObject
  | endOfString
  | endOfValue
  | colonExpected
  | listCommaExpected
  | objectCommaExpected
  | wordExpected
  | valueExpected
  | badEscape
  | badNumber
  | numberOutOfRange
  | controlCharacter
  | keyExpected
  | loneSurrogate
  | trailingComma
  | trailingCharacters
  | endOfEscape
  | tooDeep
  deriving DecidableEq

namespace Fault

def message : Fault → String
  | endOfList => "EOF while parsing a list"
  | endOfObject => "EOF while parsing an object"
  | endOfString => "EOF while parsing a string"
  | endOfValue => "EOF while parsing a value"
  | colonExpected => "expected `:`"
  | listCommaExpected => "expected `,` or `]`"
  | objectCommaExpected => "expected `,` or `\x7d`"
  | wordExpected => "expected ident"
  | valueExpected => "expected value"
  | badEscape => "invalid escape"
  | badNumber => "invalid number"
  | numberOutOfRange => "number out of range"
  | controlCharacter => "control character (\\u0000-\\u001F) found while parsing a string"
  | keyExpected => "key must be a string"
  | loneSurrogate => "lone leading surrogate in hex escape"
  | trailingComma => "trailing comma"
  | trailingCharacters => "trailing characters"
  | endOfEscape => "unexpected end of hex escape"
  | tooDeep => "recursion limit exceeded"

end Fault

inductive Problem where
  | fault (f : Fault)
  | wrongType (found expected : String)
  | wrongValue (found expected : String)
  | wrongLength (length : Nat) (expected : String)
  | unknownVariant (found : String) (known : List String)
  | missingField (name : String)
  | duplicateField (name : String)
  deriving DecidableEq

namespace Problem

/-- The names in backticks, listed with commas, or with a word between just two. -/
def oneOf : List String → String
  | [] => "there are no variants"
  | [a] => "expected `" ++ a ++ "`"
  | [a, b] => "expected `" ++ a ++ "` or `" ++ b ++ "`"
  | names => "expected one of " ++ String.intercalate ", " (names.map fun n => "`" ++ n ++ "`")

def message : Problem → String
  | fault f => f.message
  | wrongType found expected => "invalid type: " ++ found ++ ", expected " ++ expected
  | wrongValue found expected => "invalid value: " ++ found ++ ", expected " ++ expected
  | wrongLength n expected => "invalid length " ++ toString n ++ ", expected " ++ expected
  | unknownVariant found known => "unknown variant `" ++ found ++ "`, " ++ oneOf known
  | missingField name => "missing field `" ++ name ++ "`"
  | duplicateField name => "duplicate field `" ++ name ++ "`"

end Problem

structure Position where
  line : Nat
  column : Nat
  deriving DecidableEq

/-- A problem, with its position if it was found in a text. -/
structure Error where
  problem : Problem
  position : Option Position
  deriving DecidableEq

def Error.message (e : Error) : String :=
  match e.position with
  | none => e.problem.message
  | some p =>
    e.problem.message ++ " at line " ++ toString p.line ++ " column " ++ toString p.column

/-- How an error message names a value. -/
def Value.described : Value → String
  | .null => "null"
  | .bool b => "boolean `" ++ (if b then "true" else "false") ++ "`"
  | .number (.integer n) => "integer `" ++ toString n ++ "`"
  | .number (.real x) => "floating point `" ++ String.ofList x.shortestText ++ "`"
  | .string s => "string " ++ Text.quoted s
  | .array _ => "sequence"
  | .object _ => "map"

end CodeContext.Json
