/-!
# Blanks

The characters that count as white space in text for people.
-/

namespace Runbook.Text

/-- Whether a character is white space. -/
def isBlank (c : Char) : Bool :=
  let n := c.toNat
  0x9 ≤ n && n ≤ 0xd || n == 0x20 || n == 0x85 || n == 0xa0 || n == 0x1680 ||
    0x2000 ≤ n && n ≤ 0x200a || n == 0x2028 || n == 0x2029 || n == 0x202f || n == 0x205f ||
    n == 0x3000

/-- The text from its first character that is no white space. -/
def trimLeft (s : List Char) : List Char := s.dropWhile isBlank

end Runbook.Text
