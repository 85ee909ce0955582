/-!
# Blank characters

The characters with the Unicode property `White_Space`, and the removal of a blank margin.
-/

namespace SourceSpan.Text

/-- A space, tab, line break or any other character that only separates. -/
def isBlank (c : Char) : Bool :=
  let n := c.toNat
  (0x09 ≤ n && n ≤ 0x0D) || n = 0x20 || n = 0x85 || n = 0xA0 || n = 0x1680 ||
    (0x2000 ≤ n && n ≤ 0x200A) || n = 0x2028 || n = 0x2029 || n = 0x202F || n = 0x205F ||
    n = 0x3000

def trimRight (text : List Char) : List Char :=
  (text.reverse.dropWhile isBlank).reverse

def trim (text : List Char) : List Char :=
  trimRight (text.dropWhile isBlank)

end SourceSpan.Text
