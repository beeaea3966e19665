import Gatehouse.Proofs.Json.Document

/-!
# Gatehouse.Proofs.Json.Datum — what a document says as a value of a shape

`Shape.Spells` says of a document that it spells a value.  It has one rule for each way to write a
value of each shape, so it can be read against the format, and it says nothing of tokens or of how a
reader goes about its work.  `readDatum_eq_ok_iff` is the main result: a value of a shape is read
from the tokens of the documents that spell it, and from no others.

Each shape has its own lemma.  The readers of integers, names and lists of texts come first with an
exact account of what they take; the lemmas on shapes then only match that account with the rules of
`Spells`.  A new shape is a rule, a lemma and a case of the main result.
-/

namespace Gatehouse.Json

open Gatehouse.Time

/-! ## Values -/

/-- The document of a list of texts. -/
def Document.texts (ss : List String) : Document := .array (ss.map fun s => .text (.sound s))

/-- Whether a document spells a value of a shape. -/
inductive Shape.Spells : Shape → Document → Datum → Prop where
  | text (s : String) : Spells .text (.text (.sound s)) (.text s)
  | natural {bound : Nat} {n : Nat} (h : n < bound) :
    Spells (.natural bound) (.number (.whole n)) (.natural n)
  | integer {i : Int} (hlow : -(Word.bound 63 : Int) ≤ i) (hhigh : i < Word.bound 63) :
    Spells .integer64 (.number (.whole i)) (.integer i)
  | instant {s : String} {t : Timestamp} (h : Timestamp.read s = some t) :
    Spells .instant (.text (.sound s)) (.instant t)
  | name {names : List String} {s : String} (h : s ∈ names) :
    Spells (.choice names) (.text (.sound s)) (.text s)
  | variant {names : List String} {s : String} (h : s ∈ names) :
    Spells (.choice names) (.object [(.sound s, .null)]) (.text s)
  | texts (ss : List String) : Spells .texts (.texts ss) (.texts ss)
  | object (members : List (Quoted × Document)) :
    Spells .object (.object members) (.object (Document.object members).tokens)
  | absent (s : Shape) : Spells (.optional s) .null .absent
  | present {s : Shape} {d : Document} {v : Datum} (hnull : d ≠ .null) (h : s.Spells d v) :
    Spells (.optional s) d v

/-- A value that is an object has been kept with the tokens of its document. -/
theorem Shape.Spells.eq_object {s : Shape} {d : Document} {ts : List Token}
    (h : s.Spells d (.object ts)) : ∃ members, d = .object members ∧ ts = d.tokens := by
  generalize hv : Datum.object ts = v at h
  induction h with
  | object members =>
      cases hv
      exact ⟨members, rfl, rfl⟩
  | present hnull h ih => exact ih hv
  | _ => cases hv

open Document

theorem of_ite_ok {α : Type} {c : Prop} [Decidable c] {x : Except Fault α} {e : Fault} {a : α}
    (h : (if c then x else .error e) = .ok a) : c ∧ x = .ok a := by
  split at h
  · next hc => exact ⟨hc, h⟩
  · cases h

/-- What two steps come to is what the second makes of what the first comes to. -/
theorem of_bind_eq_ok {ε α β : Type} {x : Except ε α} {f : α → Except ε β} {b : β}
    (h : x >>= f = .ok b) : ∃ a, x = .ok a ∧ f a = .ok b := by
  cases x with
  | error e => cases h
  | ok a => exact ⟨a, rfl, h⟩

/-- A text is read from its one token, if it is well formed. -/
theorem readText_eq_ok_iff {ts rest : List Token} {s : String} :
    readText ts = .ok (s, rest) ↔ ts = .text (.sound s) :: rest := by
  constructor
  · intro h
    unfold readText at h
    split at h
    · cases h
      rfl
    · cases h
  · rintro rfl
    rfl

/-- An integer is read from its one token, if it is admissible. -/
theorem readInteger_eq_ok_iff {admissible : Int → Bool} {ts rest : List Token} {n : Int} :
    readInteger admissible ts = .ok (n, rest) ↔
      ts = .number (.whole n) :: rest ∧ admissible n = true := by
  constructor
  · intro h
    unfold readInteger at h
    split at h
    · obtain ⟨hadmissible, h⟩ := of_ite_ok h
      cases h
      exact ⟨rfl, hadmissible⟩
    · cases h
  · rintro ⟨rfl, hadmissible⟩
    exact if_pos hadmissible

/-! ### Lists of texts -/

/-- The tokens of texts that follow another one in a list. -/
def textsAfter (ss : List String) : List Token := itemsAfter (ss.map fun s => .text (.sound s))

theorem textsAfter_cons (s : String) (ss : List String) :
    textsAfter (s :: ss) = .comma :: .text (.sound s) :: textsAfter ss := rfl

/-- Texts that follow another one in a list are read up to its end.  Those that were read before are
kept in reverse. -/
theorem readTextsAfter_append (acc ss : List String) (rest : List Token) :
    readTextsAfter acc false (textsAfter ss ++ rest) = .ok (acc.reverse ++ ss, rest) := by
  induction ss generalizing acc with
  | nil => simp [textsAfter, itemsAfter, readTextsAfter]
  | cons s ss ih =>
      rw [textsAfter_cons, List.cons_append, List.cons_append, readTextsAfter]
      rw [if_neg Bool.false_ne_true, ih, List.reverse_cons, List.append_assoc]
      rfl

/-- What is read of a list after one of its texts is further texts and the end of the list. -/
theorem textsAfter_of_read {acc ss : List String} {ts rest : List Token}
    (h : readTextsAfter acc false ts = .ok (ss, rest)) :
    ∃ more, ss = acc.reverse ++ more ∧ ts = textsAfter more ++ rest := by
  generalize hfirst : false = first at h
  fun_induction readTextsAfter acc first ts with
  | case1 acc first ts =>
      cases h
      exact ⟨[], (List.append_nil _).symm, rfl⟩
  | case3 acc first s ts hnot ih =>
      obtain ⟨more, rfl, rfl⟩ := ih rfl h
      refine ⟨s :: more, ?_, rfl⟩
      rw [List.reverse_cons, List.append_assoc]
      rfl
  | case6 => cases hfirst
  | case2 | case4 | case5 | case7 | case8 => cases h

/-- **Lists of texts** are read from the tokens of a list whose items are all texts. -/
theorem readTexts_eq_ok_iff {ts rest : List Token} {ss : List String} :
    readTexts ts = .ok (ss, rest) ↔ ts = (Document.texts ss).tokens ++ rest := by
  constructor
  · intro h
    unfold readTexts at h
    split at h
    · next ts =>
      -- a list may be empty, and only its first item may stand without a comma
      rw [readTextsAfter.eq_def] at h
      split at h
      · cases h
        rfl
      · cases h
      · cases h
      · cases h
      · next s ts =>
        obtain ⟨more, rfl, rfl⟩ := textsAfter_of_read h
        rfl
      · cases h
    · cases h
  · rintro rfl
    cases ss with
    | nil => rfl
    | cons s ss =>
        have hread := readTextsAfter_append [s] ss rest
        exact hread

/-! ### Names -/

/-- **Names** are read from a text, or from an object with one member of that name which is null;
nothing may follow that member. -/
theorem readChoice_eq_ok_iff {names : List String} {ts rest : List Token} {s : String} :
    readChoice names ts = .ok (s, rest) ↔ s ∈ names ∧ (ts = .text (.sound s) :: rest ∨
      ts = (Document.object [(.sound s, .null)]).tokens ++ rest) := by
  constructor
  · intro h
    unfold readChoice at h
    split at h
    · obtain ⟨hmem, h⟩ := of_ite_ok h
      cases h
      exact ⟨hmem, Or.inl rfl⟩
    · split at h
      · obtain ⟨hmem, h⟩ := of_ite_ok h
        split at h
        · split at h
          · cases h
            exact ⟨hmem, Or.inr rfl⟩
          · cases h
        · cases h
        · cases h
      · cases h
    · cases h
  -- both spellings are read by computation, once the name is known
  · rintro ⟨hmem, rfl | rfl⟩
    · exact if_pos hmem
    · exact if_pos hmem

/-! ### All shapes -/

theorem map_eq_ok_iff {α β : Type} {x : Except Fault α} {f : α → β} {b : β} :
    x.map f = .ok b ↔ ∃ a, x = .ok a ∧ f a = b := by
  cases x with
  | error e => exact iff_of_false nofun nofun
  | ok a => simp [Except.map]

section Values

variable {ts rest : List Token} {v : Datum}

theorem readDatum_text_eq_ok_iff :
    readDatum .text ts = .ok (v, rest) ↔
      ∃ d : Document, ts = d.tokens ++ rest ∧ Shape.text.Spells d v := by
  rw [readDatum, map_eq_ok_iff]
  constructor
  · rintro ⟨⟨s, _⟩, hread, h⟩
    cases h
    exact ⟨.text (.sound s), readText_eq_ok_iff.1 hread, .text s⟩
  · rintro ⟨d, rfl, hspells⟩
    cases hspells with
    | text s => exact ⟨_, readText_eq_ok_iff.2 rfl, rfl⟩

theorem readDatum_natural_eq_ok_iff {bound : Nat} :
    readDatum (.natural bound) ts = .ok (v, rest) ↔
      ∃ d : Document, ts = d.tokens ++ rest ∧ (Shape.natural bound).Spells d v := by
  rw [readDatum, map_eq_ok_iff]
  constructor
  · rintro ⟨⟨n, _⟩, hread, h⟩
    cases h
    obtain ⟨hts, hbound⟩ := readInteger_eq_ok_iff.1 hread
    have hrange : 0 ≤ n ∧ n < bound := by simpa using hbound
    obtain ⟨k, rfl⟩ := Int.eq_ofNat_of_zero_le hrange.1
    exact ⟨.number (.whole k), hts, .natural (by omega)⟩
  · rintro ⟨d, rfl, hspells⟩
    cases hspells with
    | natural hbound => exact ⟨_, readInteger_eq_ok_iff.2 ⟨rfl, by simpa using hbound⟩, rfl⟩

theorem readDatum_integer64_eq_ok_iff :
    readDatum .integer64 ts = .ok (v, rest) ↔
      ∃ d : Document, ts = d.tokens ++ rest ∧ Shape.integer64.Spells d v := by
  rw [readDatum, map_eq_ok_iff]
  constructor
  · rintro ⟨⟨i, _⟩, hread, h⟩
    cases h
    obtain ⟨hts, hfits⟩ := readInteger_eq_ok_iff.1 hread
    have hrange : -(Word.bound 63 : Int) ≤ i ∧ i < Word.bound 63 := by simpa using hfits
    exact ⟨.number (.whole i), hts, .integer hrange.1 hrange.2⟩
  · rintro ⟨d, rfl, hspells⟩
    cases hspells with
    | integer hlow hhigh =>
        exact ⟨_, readInteger_eq_ok_iff.2 ⟨rfl, by simpa using ⟨hlow, hhigh⟩⟩, rfl⟩

theorem readDatum_instant_eq_ok_iff :
    readDatum .instant ts = .ok (v, rest) ↔
      ∃ d : Document, ts = d.tokens ++ rest ∧ Shape.instant.Spells d v := by
  unfold readDatum
  constructor
  · intro h
    split at h
    · next s ts' hread =>
      split at h
      · next t htime =>
        cases h
        exact ⟨.text (.sound s), readText_eq_ok_iff.1 hread, .instant htime⟩
      · cases h
    · cases h
  · rintro ⟨d, rfl, hspells⟩
    cases hspells with
    | @instant s t htime =>
        have hread : readText ((Document.text (.sound s)).tokens ++ rest) = .ok (s, rest) :=
          readText_eq_ok_iff.2 rfl
        rw [hread]
        dsimp only
        rw [htime]

theorem readDatum_choice_eq_ok_iff {names : List String} :
    readDatum (.choice names) ts = .ok (v, rest) ↔
      ∃ d : Document, ts = d.tokens ++ rest ∧ (Shape.choice names).Spells d v := by
  rw [readDatum, map_eq_ok_iff]
  constructor
  · rintro ⟨⟨s, _⟩, hread, h⟩
    cases h
    rcases readChoice_eq_ok_iff.1 hread with ⟨hmem, hts | hts⟩
    · exact ⟨.text (.sound s), hts, .name hmem⟩
    · exact ⟨.object [(.sound s, .null)], hts, .variant hmem⟩
  · rintro ⟨d, rfl, hspells⟩
    cases hspells with
    | name hmem => exact ⟨_, readChoice_eq_ok_iff.2 ⟨hmem, Or.inl rfl⟩, rfl⟩
    | variant hmem => exact ⟨_, readChoice_eq_ok_iff.2 ⟨hmem, Or.inr rfl⟩, rfl⟩

theorem readDatum_texts_eq_ok_iff :
    readDatum .texts ts = .ok (v, rest) ↔
      ∃ d : Document, ts = d.tokens ++ rest ∧ Shape.texts.Spells d v := by
  rw [readDatum, map_eq_ok_iff]
  constructor
  · rintro ⟨⟨ss, _⟩, hread, h⟩
    cases h
    exact ⟨.texts ss, readTexts_eq_ok_iff.1 hread, .texts ss⟩
  · rintro ⟨d, rfl, hspells⟩
    cases hspells with
    | texts ss => exact ⟨_, readTexts_eq_ok_iff.2 rfl, rfl⟩

/-- What an object leaves behind is a suffix of the tokens, and what it takes are its own. -/
theorem readDatum_object_eq_ok_iff :
    readDatum .object ts = .ok (v, rest) ↔
      ∃ d : Document, ts = d.tokens ++ rest ∧ Shape.object.Spells d v := by
  -- what was taken is what stands in front of the rest
  have htaken (d : Document) :
      (d.tokens ++ rest).take ((d.tokens ++ rest).length - rest.length) = d.tokens := by
    rw [List.length_append, Nat.add_sub_cancel, List.take_left]
  constructor
  · intro h
    unfold readDatum at h
    split at h
    · obtain ⟨⟨_, _⟩, hskip, hv⟩ := map_eq_ok_iff.1 h
      cases hv
      obtain ⟨d, hd⟩ := skipValue_eq_ok_iff.1 hskip
      obtain ⟨members, rfl⟩ := eq_object_of_tokens hd
      rw [hd, htaken]
      exact ⟨_, rfl, .object members⟩
    · cases h
  · rintro ⟨d, rfl, hspells⟩
    cases hspells with
    | object members =>
        have hskip : skipValue ((Document.object members).tokens ++ rest) = .ok ((), rest) :=
          skipValue_eq_ok_iff.2 ⟨_, rfl⟩
        have htokens := htaken (.object members)
        obtain ⟨ts, hts⟩ := tokens_object members
        rw [hts] at hskip htokens ⊢
        exact map_eq_ok_iff.2 ⟨_, hskip, by dsimp only; rw [htokens]⟩

/-- A null is told by its one token, which begins no other document. -/
theorem readDatum_optional_eq_ok_iff {s : Shape}
    (ih : readDatum s ts = .ok (v, rest) ↔ ∃ d : Document, ts = d.tokens ++ rest ∧ s.Spells d v) :
    readDatum (.optional s) ts = .ok (v, rest) ↔
      ∃ d : Document, ts = d.tokens ++ rest ∧ s.optional.Spells d v := by
  constructor
  · intro h
    unfold readDatum at h
    split at h
    · cases h
      exact ⟨.null, rfl, .absent s⟩
    · next hnull =>
      obtain ⟨d, rfl, hspells⟩ := ih.1 h
      refine ⟨d, rfl, .present ?_ hspells⟩
      rintro rfl
      exact hnull _ rfl
  · rintro ⟨d, rfl, hspells⟩
    cases hspells with
    | absent => rfl
    | present hnull hspells =>
        unfold readDatum
        split
        · next hts => exact absurd (eq_of_scalar? rfl hts.symm).1.symm hnull
        · exact ih.2 ⟨d, rfl, hspells⟩

/-- **Values.**  A value of a shape is read from the tokens of a document that spells it, and what
follows them is left. -/
theorem readDatum_eq_ok_iff {shape : Shape} :
    readDatum shape ts = .ok (v, rest) ↔
      ∃ d : Document, ts = d.tokens ++ rest ∧ shape.Spells d v := by
  induction shape with
  | text => exact readDatum_text_eq_ok_iff
  | natural => exact readDatum_natural_eq_ok_iff
  | integer64 => exact readDatum_integer64_eq_ok_iff
  | instant => exact readDatum_instant_eq_ok_iff
  | choice => exact readDatum_choice_eq_ok_iff
  | texts => exact readDatum_texts_eq_ok_iff
  | object => exact readDatum_object_eq_ok_iff
  | optional s ih => exact readDatum_optional_eq_ok_iff ih

end Values

end Gatehouse.Json
