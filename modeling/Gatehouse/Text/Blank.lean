/-!
# Gatehouse.Text.Blank — white space

The characters with the Unicode property `White_Space`, and the text that is left when they are
taken off at the front or at both ends.  `trim` is what a bearer credential goes through and
`trimStart` what the reader of instants skips.

Documents have blanks of their own: JSON has four of them and TOML two, and both say so where they
are read.
-/

namespace Gatehouse.Text

/-- Whether a character has the Unicode property `White_Space`. -/
def isBlank (c : Char) : Bool :=
  let n := c.toNat
  (0x09 ≤ n && n ≤ 0x0d) || n == 0x20 || n == 0x85 || n == 0xa0 || n == 0x1680 ||
    (0x2000 ≤ n && n ≤ 0x200a) || n == 0x2028 || n == 0x2029 || n == 0x202f || n == 0x205f ||
    n == 0x3000

/-- Drops the white space at the front. -/
def trimStart (s : List Char) : List Char := s.dropWhile isBlank

/-- Drops the white space at both ends. -/
def trim (s : List Char) : List Char := (trimStart (trimStart s).reverse).reverse

end Gatehouse.Text
