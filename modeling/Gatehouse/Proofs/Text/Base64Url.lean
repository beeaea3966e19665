import Gatehouse.Text.Base64Url

/-!
# Gatehouse.Proofs.Text.Base64Url — what is encoded and what is decoded

The parts of a token are written in an alphabet of 64 characters that all may stand in an address:
three bytes are four characters, and a row of one or two bytes at the end is two or three
characters, with no padding behind them.  The bits to spare in the last character must be zero, so
no two rows of characters stand for the same bytes.

* `decode_eq_some_iff` : a row of characters decodes to some bytes exactly if it is what they are
  encoded as.  One direction goes along `encode`, three bytes at a time, and the other along
  `decodeAfter`, four characters at a time.  In both the bytes and the characters are the digits of
  one number, to the base 256 and to the base 64, and what is left is linear arithmetic about that
  number.
* `symbol_ne_dot` and `dot_not_mem_encode` : no character of the alphabet is a dot, so parts that
  are joined by dots can be told apart.

That the decoding is exact, and not only a left inverse, is what a statement about every token
needs: a token is given as a string, and what its parts are the encodings of has to be found.
-/

namespace Gatehouse.Text.Base64Url

/-! ## Characters of the alphabet -/

/-- There are only 64 characters, so each is looked at. -/
theorem value?_symbol {n : Nat} (h : n < 64) : value? (symbol n) = some n := by
  have hall : ∀ n < 64, value? (symbol n) = some n := by decide
  exact hall n h

/-- The number of a character is below 64 and names the character. -/
theorem symbol_of_value? {c : Char} {n : Nat} (h : value? c = some n) : n < 64 ∧ symbol n = c := by
  unfold value? at h
  -- capital letters, small letters and digits, then the two signs
  split at h
  · next hupper =>
    cases h
    have hlow : 65 ≤ c.toNat := hupper.1
    have hhigh : c.toNat ≤ 90 := hupper.2
    refine ⟨by omega, ?_⟩
    have hchar : 65 + (c.toNat - 65) = c.toNat := by omega
    rw [symbol, if_pos (by omega), hchar]
    exact Char.ofNat_toNat c
  · split at h
    · next hlower =>
      cases h
      have hlow : 97 ≤ c.toNat := hlower.1
      have hhigh : c.toNat ≤ 122 := hlower.2
      refine ⟨by omega, ?_⟩
      have hchar : 97 + (c.toNat - 97 + 26 - 26) = c.toNat := by omega
      rw [symbol, if_neg (by omega), if_pos (by omega), hchar]
      exact Char.ofNat_toNat c
    · split at h
      · next hdigit =>
        cases h
        have hlow : 48 ≤ c.toNat := hdigit.1
        have hhigh : c.toNat ≤ 57 := hdigit.2
        refine ⟨by omega, ?_⟩
        have hchar : 48 + (c.toNat - 48 + 52 - 52) = c.toNat := by omega
        rw [symbol, if_neg (by omega), if_neg (by omega), if_pos (by omega), hchar]
        exact Char.ofNat_toNat c
      · split at h
        · next hminus =>
          cases h
          exact ⟨by omega, hminus.symm⟩
        · split at h
          · next hunder =>
            cases h
            exact ⟨by omega, hunder.symm⟩
          · cases h

/-- No character of the alphabet is a dot, and neither is what stands for a number past its end. -/
theorem symbol_ne_dot (n : Nat) : symbol n ≠ '.' := by
  intro h
  by_cases hn : n < 64
  · have hvalue := value?_symbol hn
    rw [h] at hvalue
    cases hvalue
  · have hlast : symbol n = '_' := by
      rw [symbol, if_neg (by omega), if_neg (by omega), if_neg (by omega), if_neg (by omega)]
    rw [hlast] at h
    cases h

/-! ## Decoding what is encoded -/

theorem toNat_lt (b : UInt8) : b.toNat < 256 := UInt8.toNat_lt b

/-- A byte is the last eight bits of a number that ends in it. -/
theorem ofNat_eq {b : UInt8} {n : Nat} (h : n = b.toNat) : UInt8.ofNat n = b := by
  rw [h]
  exact UInt8.ofNat_toNat

/-- A number below 256 is kept by the byte that it is cut down to. -/
theorem toNat_ofNat {n : Nat} (h : n < 256) : (UInt8.ofNat n).toNat = n := by
  rw [UInt8.toNat_ofNat', Nat.mod_eq_of_lt h]

/-- What is encoded decodes to the bytes, behind those that were decoded before. -/
theorem decodeAfter_encode (acc bytes : List UInt8) :
    decodeAfter acc (encode bytes) = some (acc.reverse ++ bytes) := by
  fun_induction encode bytes generalizing acc with
  | case1 a b c rest n ih =>
      have ha := toNat_lt a
      have hb := toNat_lt b
      have hc := toNat_lt c
      have hn : n = a.toNat * 65536 + b.toNat * 256 + c.toNat := rfl
      -- from here on the bytes are the digits of a number
      clear_value n
      have hwhole : n / 262144 * 262144 + n / 4096 % 64 * 4096 + n / 64 % 64 * 64 + n % 64 = n := by
        omega
      rw [decodeAfter, value?_symbol (by omega), value?_symbol (by omega),
        value?_symbol (by omega), value?_symbol (by omega)]
      simp only [Option.bind_eq_bind, Option.bind_some, hwhole]
      rw [ofNat_eq (b := c) (by omega), ofNat_eq (b := b) (by omega), ofNat_eq (b := a) (by omega),
        ih]
      simp
  | case2 a b n =>
      have ha := toNat_lt a
      have hb := toNat_lt b
      have hn : n = a.toNat * 1024 + b.toNat * 4 := rfl
      clear_value n
      have hwhole : n / 4096 * 4096 + n / 64 % 64 * 64 + n % 64 = n := by omega
      rw [decodeAfter, value?_symbol (by omega), value?_symbol (by omega),
        value?_symbol (by omega)]
      simp only [Option.bind_eq_bind, Option.bind_some, hwhole]
      rw [if_pos (by omega), ofNat_eq (b := b) (by omega), ofNat_eq (b := a) (by omega)]
      simp
  | case3 a n =>
      have ha := toNat_lt a
      have hn : n = a.toNat * 16 := rfl
      clear_value n
      have hwhole : n / 64 * 64 + n % 64 = n := by omega
      rw [decodeAfter, value?_symbol (by omega), value?_symbol (by omega)]
      simp only [Option.bind_eq_bind, Option.bind_some, hwhole]
      rw [if_pos (by omega), ofNat_eq (b := a) (by omega)]
      simp
  | case4 => simp [decodeAfter]

/-- What is encoded decodes to the bytes. -/
theorem decode_encode (bytes : List UInt8) : decode (encode bytes) = some bytes :=
  decodeAfter_encode [] bytes

/-! ## Encoding what is decoded -/

/-- What decodes is the encoding of the bytes that it adds to those decoded before. -/
theorem encode_of_decodeAfter {acc bytes : List UInt8} {cs : List Char}
    (h : decodeAfter acc cs = some bytes) :
    ∃ tail, bytes = acc.reverse ++ tail ∧ cs = encode tail := by
  fun_induction decodeAfter acc cs with
  | case1 acc a b c d rest ih =>
      simp only [Option.bind_eq_bind, Option.bind_eq_some_iff] at h
      obtain ⟨va, ha, vb, hb, vc, hc, vd, hd, h⟩ := h
      obtain ⟨tail, rfl, rfl⟩ := ih va vb vc vd h
      obtain ⟨hva, rfl⟩ := symbol_of_value? ha
      obtain ⟨hvb, rfl⟩ := symbol_of_value? hb
      obtain ⟨hvc, rfl⟩ := symbol_of_value? hc
      obtain ⟨hvd, rfl⟩ := symbol_of_value? hd
      -- four characters are one number of 24 bits
      obtain ⟨n, hn⟩ : ∃ n, n = va * 262144 + vb * 4096 + vc * 64 + vd := ⟨_, rfl⟩
      rw [← hn]
      refine ⟨.ofNat (n / 65536) :: .ofNat (n / 256 % 256) :: .ofNat (n % 256) :: tail, by simp, ?_⟩
      have hwhole : n / 65536 * 65536 + n / 256 % 256 * 256 + n % 256 = n := by omega
      have hfirst : n / 262144 = va := by omega
      have hsecond : n / 4096 % 64 = vb := by omega
      have hthird : n / 64 % 64 = vc := by omega
      have hfourth : n % 64 = vd := by omega
      rw [encode, toNat_ofNat (by omega), toNat_ofNat (by omega), toNat_ofNat (by omega), hwhole,
        hfirst, hsecond, hthird, hfourth]
  | case2 acc a b c =>
      simp only [Option.bind_eq_bind, Option.bind_eq_some_iff] at h
      obtain ⟨va, ha, vb, hb, vc, hc, h⟩ := h
      obtain ⟨hva, rfl⟩ := symbol_of_value? ha
      obtain ⟨hvb, rfl⟩ := symbol_of_value? hb
      obtain ⟨hvc, rfl⟩ := symbol_of_value? hc
      obtain ⟨n, hn⟩ : ∃ n, n = va * 4096 + vb * 64 + vc := ⟨_, rfl⟩
      rw [← hn] at h
      -- the two bits to spare are zero, so the bytes have the same number
      obtain ⟨hspare, hbytes⟩ := Option.ite_none_right_eq_some.1 h
      obtain rfl := Option.some.inj hbytes
      refine ⟨[.ofNat (n / 1024), .ofNat (n / 4 % 256)], by simp, ?_⟩
      have hwhole : n / 1024 * 1024 + n / 4 % 256 * 4 = n := by omega
      have hfirst : n / 4096 = va := by omega
      have hsecond : n / 64 % 64 = vb := by omega
      have hthird : n % 64 = vc := by omega
      rw [encode, toNat_ofNat (by omega), toNat_ofNat (by omega), hwhole, hfirst, hsecond, hthird]
  | case3 acc a b =>
      simp only [Option.bind_eq_bind, Option.bind_eq_some_iff] at h
      obtain ⟨va, ha, vb, hb, h⟩ := h
      obtain ⟨hva, rfl⟩ := symbol_of_value? ha
      obtain ⟨hvb, rfl⟩ := symbol_of_value? hb
      obtain ⟨n, hn⟩ : ∃ n, n = va * 64 + vb := ⟨_, rfl⟩
      rw [← hn] at h
      obtain ⟨hspare, hbytes⟩ := Option.ite_none_right_eq_some.1 h
      obtain rfl := Option.some.inj hbytes
      refine ⟨[.ofNat (n / 16)], by simp, ?_⟩
      have hwhole : n / 16 * 16 = n := by omega
      have hfirst : n / 64 = va := by omega
      have hsecond : n % 64 = vb := by omega
      rw [encode, toNat_ofNat (by omega), hwhole, hfirst, hsecond]
  | case4 => cases h
  | case5 acc =>
      cases h
      exact ⟨[], (List.append_nil _).symm, rfl⟩

/-- **Decoding.**  What decodes to some bytes is what they are encoded as, and nothing else. -/
theorem decode_eq_some_iff {cs : List Char} {bytes : List UInt8} :
    decode cs = some bytes ↔ cs = encode bytes := by
  constructor
  · intro h
    obtain ⟨tail, rfl, hcs⟩ := encode_of_decodeAfter h
    exact hcs
  · rintro rfl
    exact decode_encode bytes

/-! ## Dots -/

/-- Nothing is encoded with a dot. -/
theorem dot_not_mem_encode (bytes : List UInt8) : '.' ∉ encode bytes := by
  have hne : ∀ n, '.' ≠ symbol n := fun n h => symbol_ne_dot n h.symm
  fun_induction encode bytes with
  | case1 a b c rest n ih =>
      rw [List.mem_cons, List.mem_cons, List.mem_cons, List.mem_cons]
      rintro (h | h | h | h | h)
      · exact hne _ h
      · exact hne _ h
      · exact hne _ h
      · exact hne _ h
      · exact ih h
  | case2 a b n => simp [hne]
  | case3 a n => simp [hne]
  | case4 => simp

end Gatehouse.Text.Base64Url
