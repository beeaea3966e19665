/-!
# Gatehouse.Text.Utf8 — characters of bytes

Bytes that come from outside need not be text.  `glyphs` reads them as far as they are: it gives
the characters in order and `none` for every byte that belongs to no character.  On the bytes of a
string it gives the characters of the string.

Three readers differ in what becomes of bytes that are no text.  `decode?` refuses them all, as the
parameters of a path and the contents of files are read.  `glyphs` marks them one by one, for the
reader of JSON, which minds them only in a string that it looks at.  `decodeLossy` puts a
replacement in their place, as the query strings are read.  On the bytes of a text all three agree.
-/

namespace Gatehouse.Text.Utf8

/-- The bytes of a string. -/
def encode (s : String) : List UInt8 := s.toUTF8.toList

/-- The string of a row of bytes, if they are the bytes of one. -/
def decode? (bytes : List UInt8) : Option String := String.fromUTF8? ⟨bytes.toArray⟩

/-- The character of one to four bytes that are exactly its encoding. -/
def single? (bytes : List UInt8) : Option Char :=
  match (decode? bytes).map String.toList with
  | some [c] => some c
  | _ => none

/-- The character at the front of a row of bytes and the number of its bytes. -/
def frontChar? (bytes : List UInt8) : Option (Char × Nat) :=
  let attempt (n : Nat) := (single? (bytes.take n)).map (·, n)
  attempt 1 <|> attempt 2 <|> attempt 3 <|> attempt 4

/-- The characters of a row of bytes, after the reversed ones before it and one for each unit of
fuel at most, with `none` for every byte of no character. -/
def glyphsAfter (acc : List (Option Char)) : Nat → List UInt8 → List (Option Char)
  | 0, _ => acc.reverse
  | _, [] => acc.reverse
  | fuel + 1, b :: rest =>
    match frontChar? (b :: rest) with
    | some (c, n) => glyphsAfter (some c :: acc) fuel (rest.drop (n - 1))
    | none => glyphsAfter (none :: acc) fuel rest

/-- The characters of a row of bytes, with `none` for every byte of no character. -/
def glyphs (bytes : List UInt8) : List (Option Char) :=
  match decode? bytes with
  | some s => s.toList.map some
  | none => glyphsAfter [] bytes.length bytes

/-! ## Bytes that are no text

A row of bytes that is no character is cut into pieces, each the longest that some character begins
with, or a single byte.  Every piece counts as one unknown character. -/

/-- Whether a byte continues a character. -/
def isContinuation (b : UInt8) : Bool := 0x80 ≤ b && b ≤ 0xbf

/-- The bytes that may follow the first byte of a character of three or four bytes. -/
def secondRange (lead : UInt8) : UInt8 × UInt8 :=
  if lead = 0xe0 then (0xa0, 0xbf)
  else if lead = 0xed then (0x80, 0x9f)
  else if lead = 0xf0 then (0x90, 0xbf)
  else if lead = 0xf4 then (0x80, 0x8f)
  else (0x80, 0xbf)

/-- The length of the piece at the front of a row of bytes that begins with no character. -/
def brokenLength : List UInt8 → Nat
  | lead :: second :: rest =>
    let (low, high) := secondRange lead
    if 0xe0 ≤ lead ∧ lead ≤ 0xf4 ∧ low ≤ second ∧ second ≤ high then
      if 0xf0 ≤ lead ∧ rest.head?.any isContinuation then 3 else 2
    else 1
  | _ => 1

/-- The characters of a row of bytes, with U+FFFD for every piece of no character; there is one for
each unit of fuel at most. -/
def decodeLossyChars : Nat → List UInt8 → List Char
  | 0, _ => []
  | _, [] => []
  | fuel + 1, bytes =>
    match frontChar? bytes with
    | some (c, n) => c :: decodeLossyChars fuel (bytes.drop n)
    | none => '\ufffd' :: decodeLossyChars fuel (bytes.drop (brokenLength bytes))

/-- The text of a row of bytes, with U+FFFD for every piece of no character. -/
def decodeLossy (bytes : List UInt8) : String :=
  String.ofList (decodeLossyChars bytes.length bytes)

end Gatehouse.Text.Utf8
