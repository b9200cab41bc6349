/-!
# Lines of an input

An input is a run of bytes. A line of it ends at a line feed, and the line feed with one carriage
return before it is dropped. What follows the last line feed is one more line as it stands, if there
is anything. The input ends before the first line that is not UTF-8.
-/

namespace CodeContext.Text

/-- Drops one carriage return at the end of some bytes. -/
def dropReturnByte (line : List UInt8) : List UInt8 :=
  if line.getLast? = some 13 then line.dropLast else line

/-- The lines of some bytes. `line` holds the bytes of the current line, in reverse. -/
def byteLinesFrom (line : List UInt8) : List UInt8 → List (List UInt8)
  | [] => if line.isEmpty then [] else [line.reverse]
  | b :: rest =>
    if b = 10 then dropReturnByte line.reverse :: byteLinesFrom [] rest
    else byteLinesFrom (b :: line) rest

def byteLines (bytes : List UInt8) : List (List UInt8) :=
  byteLinesFrom [] bytes

/-- The text that some bytes encode. -/
def ofBytes? (bytes : List UInt8) : Option String :=
  String.fromUTF8? ⟨bytes.toArray⟩

/-- The texts of the lines before the first that has none. -/
def textsOf : List (List UInt8) → List String
  | [] => []
  | line :: rest =>
    match ofBytes? line with
    | none => []
    | some text => text :: textsOf rest

/-- The lines of an input. -/
def inputLines (input : ByteArray) : List String :=
  textsOf (byteLines input.data.toList)

end CodeContext.Text
