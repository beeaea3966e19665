/-!
# Gatehouse.Text.Base64Url — bytes as letters, digits, `-` and `_`

The URL-safe alphabet of RFC 4648 without padding.  `decode` accepts exactly what `encode` writes:
three characters to two bytes and two characters to one leave bits over, and those must be zero.

This exactness is what a signature needs.  If two texts had one meaning, a token could be altered
without its bytes being altered; so whitespace, padding and spare bits are all refused, and
`Gatehouse.Proofs.Text.Base64Url` proves that a text that is decoded is the text of what it is
decoded to.  The point is not in the alphabet, and so the parts of a token can be told apart.
-/

namespace Gatehouse.Text.Base64Url

/-- The character of a number below 64. -/
def symbol (n : Nat) : Char :=
  if n < 26 then Char.ofNat (65 + n)
  else if n < 52 then Char.ofNat (97 + (n - 26))
  else if n < 62 then Char.ofNat (48 + (n - 52))
  else if n = 62 then '-'
  else '_'

/-- The number of a character of the alphabet. -/
def value? (c : Char) : Option Nat :=
  if 'A' ≤ c ∧ c ≤ 'Z' then some (c.toNat - 65)
  else if 'a' ≤ c ∧ c ≤ 'z' then some (c.toNat - 97 + 26)
  else if '0' ≤ c ∧ c ≤ '9' then some (c.toNat - 48 + 52)
  else if c = '-' then some 62
  else if c = '_' then some 63
  else none

/-- The characters of a row of bytes. -/
def encode : List UInt8 → List Char
  | a :: b :: c :: rest =>
    let n := a.toNat * 65536 + b.toNat * 256 + c.toNat
    symbol (n / 262144) :: symbol (n / 4096 % 64) :: symbol (n / 64 % 64) :: symbol (n % 64) ::
      encode rest
  | [a, b] =>
    let n := a.toNat * 1024 + b.toNat * 4
    [symbol (n / 4096), symbol (n / 64 % 64), symbol (n % 64)]
  | [a] =>
    let n := a.toNat * 16
    [symbol (n / 64), symbol (n % 64)]
  | [] => []

/-- The bytes of a row of characters after the reversed bytes before it. -/
def decodeAfter (acc : List UInt8) : List Char → Option (List UInt8)
  | a :: b :: c :: d :: rest => do
    let n := (← value? a) * 262144 + (← value? b) * 4096 + (← value? c) * 64 + (← value? d)
    decodeAfter
      (UInt8.ofNat (n % 256) :: UInt8.ofNat (n / 256 % 256) :: UInt8.ofNat (n / 65536) :: acc) rest
  | [a, b, c] => do
    let n := (← value? a) * 4096 + (← value? b) * 64 + (← value? c)
    if n % 4 = 0 then
      some (UInt8.ofNat (n / 4 % 256) :: UInt8.ofNat (n / 1024) :: acc).reverse
    else none
  | [a, b] => do
    let n := (← value? a) * 64 + (← value? b)
    if n % 16 = 0 then some (UInt8.ofNat (n / 16) :: acc).reverse else none
  | [_] => none
  | [] => some acc.reverse

/-- The bytes of a row of characters. -/
def decode (cs : List Char) : Option (List UInt8) := decodeAfter [] cs

end Gatehouse.Text.Base64Url
