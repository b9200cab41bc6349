/-!
# Lines of a text

A line ends at a line feed, which is not part of it, and a carriage return just before the line feed
is dropped too. Text after the last line feed is one more line, if there is any. Lines are numbered
from one; `slice` takes a range of them, clamped to the lines there are.
-/

namespace CodeContext.Text

/-- Drops one carriage return at the end. -/
def dropReturn (line : List Char) : List Char :=
  if line.getLast? = some '\r' then line.dropLast else line

/-- The lines of a text. `line` holds the characters of the current line, in reverse. -/
def linesFrom (line : List Char) : List Char → List (List Char)
  | [] => if line.isEmpty then [] else [line.reverse]
  | c :: rest =>
    if c = '\n' then dropReturn line.reverse :: linesFrom [] rest
    else linesFrom (c :: line) rest

def lines (text : List Char) : List (List Char) :=
  linesFrom [] text

/-- The lines with numbers from `start` to `stop`, both included, joined by line feeds. -/
def slice (text : String) (start stop : Int) : String :=
  let first := (max start 1 - 1).toNat
  let last := stop.toNat
  let chosen := ((lines text.toList).take last).drop first
  String.ofList (List.intercalate ['\n'] chosen)

end CodeContext.Text
