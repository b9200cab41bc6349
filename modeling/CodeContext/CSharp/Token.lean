/-!
# Tokens of C#

What the grammar sees of a token is its symbol, and whether the token stands right after the one
before it. Beside that a token has its place in the text, and the lines where it starts and ends.
-/

namespace CodeContext.CSharp

/-- The directives that the grammar knows. All others are passed over like comments. -/
inductive Directive where
  | ifStart
  | elseIf
  | elsePart
  | endIf
  deriving DecidableEq

inductive Symbol where
  /-- An identifier or a keyword. -/
  | word (text : String)
  | number
  | character
  | string
  /-- An operator or a punctuation mark. -/
  | mark (text : String)
  /-- The opening quotes of an interpolated string. -/
  | stringStart
  /-- The closing quotes of an interpolated string. -/
  | stringEnd
  /-- The braces that open a hole in an interpolated string. -/
  | holeStart
  /-- The braces that close a hole. -/
  | holeEnd
  /-- The format of what a hole holds, with its colon. -/
  | format
  | directive (d : Directive)
  /-- Characters that make no token. -/
  | invalid
  deriving DecidableEq

structure Token where
  symbol : Symbol
  /-- Whether nothing stands between the token before and this one. -/
  glued : Bool
  /-- How many characters stand before the token. -/
  start : Nat
  /-- How many characters stand before what follows the token. -/
  stop : Nat
  firstLine : Nat
  lastLine : Nat
  deriving DecidableEq

namespace Token

/-- What the grammar sees of a token. -/
def sight (t : Token) : Symbol × Bool :=
  (t.symbol, t.glued)

/-- The token below some more line feeds. -/
def shift (k : Nat) (t : Token) : Token :=
  { t with start := t.start + k, stop := t.stop + k, firstLine := t.firstLine + k, lastLine := t.lastLine + k }

/-- The identifier that a token is, if it is a word. -/
def text (t : Token) : String :=
  match t.symbol with
  | .word s => s
  | _ => ""

end Token

end CodeContext.CSharp
