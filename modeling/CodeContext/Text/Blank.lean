/-!
# Blank characters

White space is the Unicode property `White_Space`: twenty-five characters, of which six are ASCII.
A text is blank when it has no other character, and trimming drops blank characters at both ends.
-/

namespace CodeContext.Text

/-- The characters with the Unicode property `White_Space`. -/
def isBlank (c : Char) : Bool :=
  let n := c.toNat
  (9 ≤ n && n ≤ 13) || n == 0x20 || n == 0x85 || n == 0xA0 || n == 0x1680 ||
    (0x2000 ≤ n && n ≤ 0x200A) || n == 0x2028 || n == 0x2029 || n == 0x202F || n == 0x205F ||
    n == 0x3000

/-- The text without its leading and trailing blank characters. -/
def trimList (cs : List Char) : List Char :=
  ((cs.dropWhile isBlank).reverse.dropWhile isBlank).reverse

def trim (s : String) : String :=
  String.ofList (trimList s.toList)

/-- Whether the text has only blank characters. -/
def blank (s : String) : Bool :=
  s.toList.all isBlank

end CodeContext.Text
