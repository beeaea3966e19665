/-!
# Gatehouse.Word — the numbers that fit into a word

A word of some bits holds the numbers below `Word.bound`.  A signed word with one bit more holds the
integers that are below that bound and not below its negative.

Numbers are `Nat` and `Int` throughout, and a bound is checked where a number comes in or where it
could leave its word.  The bound is a function of the number of bits and not a numeral, so that no
proof has to look at the numeral: only that it is positive is ever needed, or that one bound is
below another.
-/

namespace Gatehouse.Word

/-- The least number that a word of some bits does not hold. -/
def bound (bits : Nat) : Nat := Nat.pow 2 bits

end Gatehouse.Word
