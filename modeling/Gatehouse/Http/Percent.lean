import Gatehouse.Text.Digits
import Gatehouse.Text.Split
import Gatehouse.Text.Utf8

/-!
# Gatehouse.Http.Percent — percent-encoded text

In paths and query strings a byte may be written as a percent sign and two hexadecimal digits.  A
percent sign that is not followed by two digits stands for itself.

* `decode` gives the bytes of a text.
* `readForm` reads a query string as named texts; there a plus sign stands for a blank, and it is
  replaced before the escapes are, so that an escaped plus sign stays one.
-/

namespace Gatehouse.Http.Percent

open Gatehouse.Text

/-- The bytes of a percent-encoded text. -/
def decode : List Char → List UInt8
  | [] => []
  | '%' :: h :: l :: rest =>
    match hexDigit? h, hexDigit? l with
    | some high, some low => UInt8.ofNat (high * 16 + low) :: decode rest
    | _, _ => Utf8.encode "%" ++ decode (h :: l :: rest)
  | c :: rest => Utf8.encode (String.singleton c) ++ decode rest

/-- The text of a percent-encoded text, if its bytes are one. -/
def decodeText? (s : String) : Option String := Utf8.decode? (decode s.toList)

/-- The text of one side of a form's entry. -/
def decodeFormText (s : List Char) : String :=
  Utf8.decodeLossy (decode (s.map fun c => if c = '+' then ' ' else c))

/-- The entries of a query string, in their order. -/
def readForm (query : String) : List (String × String) :=
  let entries := (splitAt '&' query.toList).filter fun entry => !entry.isEmpty
  entries.map fun entry =>
    let (name, value) := splitFirst '=' entry
    (decodeFormText name, decodeFormText (value.getD []))

end Gatehouse.Http.Percent
