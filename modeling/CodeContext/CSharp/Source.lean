import CodeContext.CSharp.Grammar
import CodeContext.CSharp.Lexer

/-!
# A parser of C#

A source that fits the grammar to its last token has one tree for each of its items. One that does not
has errors. If a single closing brace at the end would mend it, it is read as if the brace were there;
otherwise tokens that fit nowhere are passed over.
-/

namespace CodeContext.CSharp

namespace Source

open Form

/-- Enough fuel to match any number of tokens: no form meets itself again before it takes a token. -/
def fuelFor (tokens : Array Token) : Nat :=
  400 * (tokens.size + 4)

/-- The trees of tokens that fit the grammar to the end. -/
def fit? (tokens : Array Token) : Option (List Tree) :=
  let whole := .many (.named .topLevelItem)
  match run (Phrase.form false) tokens (fuelFor tokens) whole 0 with
  | some (trees, i) => if i = tokens.size then some trees else none
  | none => none

/-- A closing brace that is missing at the end. -/
def closingBrace (tokens : Array Token) : Token :=
  let place := (tokens.back?.map Token.stop).getD 0
  let line := (tokens.back?.map Token.lastLine).getD 1
  ⟨.mark "\x7d", false, place, place, line, line⟩

/-- The trees of tokens some of which fit nowhere. -/
def salvage (tokens : Array Token) : List Tree :=
  let stray := .node .error (.terminal .any)
  let whole := .many (first [.named .topLevelItem, stray])
  match run (Phrase.form true) tokens (fuelFor tokens) whole 0 with
  | some (trees, _) => trees
  | none => []

def ofTokens (tokens : Array Token) : Source :=
  match fit? tokens with
  | some trees => ⟨tokens, trees, false⟩
  | none =>
    match fit? (tokens.push (closingBrace tokens)) with
    | some trees => ⟨tokens, trees, true⟩
    | none => ⟨tokens, salvage tokens, true⟩

/-- The parser that the program uses. -/
def parse : Parser := fun text =>
  ofTokens (CSharp.tokens text.toList).toArray

end Source

end CodeContext.CSharp
