import CodeContext.CSharp.Tree

/-!
# Grammars that choose in order

A form says what a run of tokens may look like. An alternative is tried only where those before it do
not fit, a repetition goes on as long as it can, and a form may look ahead without taking anything.
Matching a form gives the trees of what it took, whose leaves are all the tokens that were taken, in
their order.
-/

namespace CodeContext.CSharp

/-- What a single token may be. -/
inductive Terminal where
  | symbol (s : Symbol)
  /-- A symbol that stands right after the token before. -/
  | glued (s : Symbol)
  /-- A word that is none of the given ones. -/
  | wordExcept (reserved : List String)
  /-- One of some words. -/
  | wordAmong (words : List String)
  | any

namespace Terminal

def accepts (t : Terminal) (s : Symbol) (isGlued : Bool) : Bool :=
  match t with
  | .symbol x => x == s
  | .glued x => x == s && isGlued
  | .wordExcept reserved =>
    match s with
    | .word w => !reserved.contains w
    | _ => false
  | .wordAmong words =>
    match s with
    | .word w => words.contains w
    | _ => false
  | .any => true

end Terminal

/-- A form over named forms, whose names are of type `ρ`. -/
inductive Form (ρ : Type) where
  | terminal (t : Terminal)
  | empty
  | seq (a b : Form ρ)
  | alt (a b : Form ρ)
  | many (a : Form ρ)
  /-- Fits where the form fits, and takes nothing. -/
  | ahead (a : Form ρ)
  /-- Fits where the form does not fit, and takes nothing. -/
  | notAhead (a : Form ρ)
  | named (r : ρ)
  /-- What the form takes makes a node. -/
  | node (c : Construct) (a : Form ρ)

namespace Form

variable {ρ : Type}

/-- Matches a form from a token on. Gives the trees of what it takes and the token after, or nothing
where the form does not fit or the fuel is too low. -/
def run (grammar : ρ → Form ρ) (tokens : Array Token) :
    Nat → Form ρ → Nat → Option (List Tree × Nat)
  | 0, _, _ => none
  | fuel + 1, form, i =>
    match form with
    | .terminal t =>
      match tokens[i]? with
      | none => none
      | some token => if t.accepts token.symbol token.glued then some ([.leaf i], i + 1) else none
    | .empty => some ([], i)
    | .seq a b =>
      match run grammar tokens fuel a i with
      | none => none
      | some (ts, j) =>
        match run grammar tokens fuel b j with
        | none => none
        | some (us, k) => some (ts ++ us, k)
    | .alt a b =>
      match run grammar tokens fuel a i with
      | none => run grammar tokens fuel b i
      | found => found
    | .many a =>
      match run grammar tokens fuel a i with
      | none => some ([], i)
      | some (ts, j) =>
        if j = i then some ([], i)
        else
          match run grammar tokens fuel (.many a) j with
          | none => none
          | some (us, k) => some (ts ++ us, k)
    | .ahead a =>
      match run grammar tokens fuel a i with
      | none => none
      | some _ => some ([], i)
    | .notAhead a =>
      match run grammar tokens fuel a i with
      | none => some ([], i)
      | some _ => none
    | .named r => run grammar tokens fuel (grammar r) i
    | .node c a =>
      match run grammar tokens fuel a i with
      | none => none
      | some (ts, j) => some ([.node c ts], j)

/-! ## Writing forms -/

/-- One form after the other. -/
def all : List (Form ρ) → Form ρ
  | [] => .empty
  | [a] => a
  | a :: rest => .seq a (all rest)

/-- The first form that fits. With no form left, nothing fits. -/
def first : List (Form ρ) → Form ρ
  | [] => .notAhead .empty
  | [a] => a
  | a :: rest => .alt a (first rest)

def opt (a : Form ρ) : Form ρ :=
  .alt a .empty

def word (w : String) : Form ρ :=
  .terminal (.symbol (.word w))

def mark (m : String) : Form ρ :=
  .terminal (.symbol (.mark m))

def gluedMark (m : String) : Form ρ :=
  .terminal (.glued (.mark m))

/-- One or more, with a mark between. -/
def listed (m : String) (a : Form ρ) : Form ρ :=
  .seq a (.many (.seq (mark m) a))

/-- Any number, with commas between. -/
def commas (a : Form ρ) : Form ρ :=
  opt (listed "," a)

/-- Any number, with commas between, and perhaps one at the end. -/
def commasOpen (a : Form ρ) : Form ρ :=
  opt (.seq (listed "," a) (opt (mark ",")))

/-- A form in round brackets. -/
def parenthesized (a : Form ρ) : Form ρ :=
  all [mark "(", a, mark ")"]

/-- A form in square brackets. -/
def square (a : Form ρ) : Form ρ :=
  all [mark "[", a, mark "]"]

/-- A form in braces. -/
def braced (a : Form ρ) : Form ρ :=
  all [mark "\x7b", a, mark "\x7d"]

end Form

end CodeContext.CSharp
