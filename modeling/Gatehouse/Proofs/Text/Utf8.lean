import Mathlib.Tactic.SplitIfs
import Gatehouse.Text.Utf8

/-!
# Gatehouse.Proofs.Text.Utf8 — the bytes of a string

A string is kept as its characters, and the bytes of a message, of a token or of a file are only its
encoding.  Two facts about that encoding are needed.

* `glyphs_encode` : the characters that a reader finds in the bytes of a string are the characters
  of the string, each of them sound.  What is proved about texts therefore holds of the bytes that
  were written for them.
* `encode_lt_encode_iff` : strings stand in the order of their bytes.  Wherever the order of names
  or of identifiers matters, it is the order of bytes; the model compares strings, that is,
  characters by their numbers, and this is the theorem that makes the two the same.

The order is proved one character at a time: a smaller character has smaller bytes whatever follows
it (`encodeChar_append_lt`), because each length of encoding begins with its own marks, which grow
with the length, and the bytes of one length are the digits of the character to the base 64.
-/

namespace Gatehouse.Text.Utf8

/-- The bytes of an array from a place on follow those that were taken before. -/
theorem toListLoop_eq (bytes : ByteArray) (i : Nat) (taken : List UInt8) :
    ByteArray.toList.loop bytes i taken = taken.reverse ++ bytes.data.toList.drop i := by
  fun_induction ByteArray.toList.loop bytes i taken with
  | case1 i taken h ih =>
      have hlt : i < bytes.data.toList.length := h
      have hget : bytes.get! i = bytes.data.toList[i] := by
        show bytes.data[i]! = bytes.data.toList[i]
        rw [getElem!_pos bytes.data i h, Array.getElem_toList]
      rw [ih, List.drop_eq_getElem_cons hlt, hget, List.reverse_cons, List.append_assoc]
      rfl
  | case2 i taken h =>
      have hlast : bytes.data.toList.length ≤ i := Nat.le_of_not_lt h
      rw [List.drop_eq_nil_of_le hlast, List.append_nil]

/-- The array of the list of bytes of an array is that array. -/
theorem toArray_toList (bytes : ByteArray) : (⟨bytes.toList.toArray⟩ : ByteArray) = bytes := by
  have hloop := toListLoop_eq bytes 0 []
  have hlist : bytes.toList = bytes.data.toList := hloop
  rw [hlist]

/-- The bytes of a string are those of that string. -/
theorem decode?_encode (s : String) : decode? (encode s) = some s := by
  have hbytes : (⟨(encode s).toArray⟩ : ByteArray) = s.toUTF8 := toArray_toList s.toUTF8
  unfold decode?
  rw [hbytes, String.fromUTF8?]
  exact dif_pos s.isValidUTF8

/-- **Characters of a string.**  The bytes of a string are read as its characters. -/
theorem glyphs_encode (s : String) : glyphs (encode s) = s.toList.map some := by
  unfold glyphs
  rw [decode?_encode]

/-! ## The order of the bytes -/

/-- The bytes of a string are those of its characters, one after another. -/
theorem encode_eq (s : String) : encode s = s.toList.flatMap String.utf8EncodeChar := by
  have hlist : s.toUTF8.toList = s.toUTF8.data.toList := toListLoop_eq s.toUTF8 0 []
  have hbytes : s.toUTF8 = (s.toList.flatMap String.utf8EncodeChar).toByteArray :=
    s.utf8Encode_toList.symm
  rw [encode, hlist, hbytes, List.data_toByteArray]

/-- Of two rows of bytes the first byte decides, unless it is the same. -/
theorem ofNat_cons_lt_iff {m n : Nat} (hm : m < 256) (hn : n < 256) (xs ys : List UInt8) :
    UInt8.ofNat m :: xs < UInt8.ofNat n :: ys ↔ m < n ∨ m = n ∧ xs < ys := by
  rw [List.cons_lt_cons_iff, UInt8.lt_iff_toNat_lt, ← UInt8.toNat_inj,
    UInt8.toNat_ofNat_of_lt' hm, UInt8.toNat_ofNat_of_lt' hn]

/-- The bytes of a smaller character come first, whatever follows either. -/
theorem encodeChar_append_lt {c d : Char} (h : c < d) (xs ys : List UInt8) :
    String.utf8EncodeChar c ++ xs < String.utf8EncodeChar d ++ ys := by
  have hval : c.val.toNat < d.val.toNat := h
  have hd : d.val.toNat < 0x110000 := by
    rcases d.valid with hlow | hhigh
    · exact Nat.lt_trans hlow (by decide)
    · exact hhigh.2
  -- every byte after the first has six bits, so each is cut off from what the next one left
  have htwo : ∀ n, n / 4096 = n / 64 / 64 := fun n => (Nat.div_div_eq_div_mul n 64 64).symm
  have hthree : ∀ n, n / 262144 = n / 64 / 64 / 64 := by
    intro n
    rw [Nat.div_div_eq_div_mul, Nat.div_div_eq_div_mul]
  unfold String.utf8EncodeChar
  generalize c.val.toNat = m at hval
  generalize d.val.toNat = n at hval hd
  dsimp only
  rw [htwo, htwo, hthree, hthree]
  -- a case for each pair of lengths, in which the longer one belongs to the larger character
  split_ifs <;>
    simp (disch := omega) only [List.cons_append, ofNat_cons_lt_iff] <;> omega

/-- The bytes of a smaller row of characters come first. -/
theorem flatMap_encodeChar_lt {cs ds : List Char} (h : cs < ds) :
    cs.flatMap String.utf8EncodeChar < ds.flatMap String.utf8EncodeChar := by
  induction h with
  | @nil d ds =>
      obtain ⟨b, bs, hb⟩ := List.exists_cons_of_ne_nil (String.utf8EncodeChar_ne_nil (c := d))
      rw [List.flatMap_nil, List.flatMap_cons, hb]
      exact List.nil_lt_cons _ _
  | cons _ ih =>
      rw [List.flatMap_cons, List.flatMap_cons]
      exact List.append_left_lt ih
  | rel h => exact encodeChar_append_lt h _ _

/-- **Order.**  Strings are ordered as their bytes are. -/
theorem encode_lt_encode_iff {s t : String} : encode s < encode t ↔ s < t := by
  have hmono : ∀ {s t : String}, s < t → encode s < encode t := by
    intro s t h
    rw [encode_eq, encode_eq]
    exact flatMap_encodeChar_lt (String.lt_iff.1 h)
  refine ⟨fun h => Decidable.byContradiction fun hlt => ?_, hmono⟩
  by_cases hgt : t < s
  · exact List.lt_asymm h (hmono hgt)
  · obtain rfl := String.le_antisymm (String.not_lt.1 hgt) (String.not_lt.1 hlt)
    exact List.lt_irrefl _ h

end Gatehouse.Text.Utf8
