import Gatehouse.Proofs.Json.Record
import Gatehouse.Proofs.Token.Nesting

/-!
# Gatehouse.Proofs.Token.Audience — payloads that are meant for nobody else

A payload names nobody else (`Unaddressed`) if each of the members `aud` and `nbf` occurs at most
once and both can be passed over.  `audienceOf_eq_unnamed_iff` says that these are exactly the
payloads without an audience.

What it takes to be passed over differs between the two.  The audience is read as a value of any
shape first, so its depth and its words matter, and it names somebody if that value is a text or a
list of texts (`Nameless`).  The time is read as a number at once, and whatever it is instead is
left where it stands: a scalar is one word, but of an array or an object only the opening bracket
has been read, so the reader gets on only if the closing one is next (`Passable`).
-/

namespace Gatehouse.KeyedSigner

open Gatehouse.Json
open Json.Document

/-! ## Values -/

/-- Whether a value of `aud` names nobody: it is neither a text nor a list of texts, and a reader
that goes no deeper than any value may ends behind it. -/
structure Nameless (d : Document) : Prop where
  depth : d.depth ≤ maxNesting
  ends : EndsBehind d
  not_text : ∀ s, d ≠ .text (.sound s)
  not_texts : ∀ ss, d ≠ .texts ss

/-- Whether a value of `nbf` can be passed over: it has no items and no members, and is no word that
a reader refuses before its end. -/
def Passable : Document → Prop
  | .array items => items = []
  | .object members => members = []
  | d => EndsBehind d

/-- The audience of tokens that are not a text alone. -/
theorem ofTokens_eq {ts : List Json.Token} (htext : ∀ s, ts ≠ [.text (.sound s)]) :
    Audience.ofTokens ts =
      if maxNesting < nesting 0 ts ∨ !endsBehind ts then .unreadable
      else match readTexts ts with
        | .ok _ => .named
        | .error _ => .unnamed := by
  unfold Audience.ofTokens
  split
  · exact absurd rfl (htext _)
  · rfl

/-- What is no list of texts is not read as one. -/
theorem ne_texts_iff (d : Document) :
    (∀ ss, d ≠ .texts ss) ↔ ∃ e, readTexts d.tokens = .error e := by
  constructor
  · intro h
    cases hread : readTexts d.tokens with
    | error e => exact ⟨e, rfl⟩
    | ok r =>
        have htokens : d.tokens ++ [] = (Document.texts r.1).tokens ++ r.2 := by
          rw [List.append_nil]
          exact readTexts_eq_ok_iff.1 hread
        exact absurd (tokens_append_inj _ _ htokens).1 (h r.1)
  · rintro ⟨e, he⟩ ss rfl
    have hread : readTexts (Document.texts ss).tokens = .ok (ss, []) :=
      readTexts_eq_ok_iff.2 (List.append_nil _).symm
    rw [hread] at he
    cases he

/-- **A value of `aud`** is passed over exactly if it names nobody and is read to its end. -/
theorem ofTokens_eq_unnamed_iff (d : Document) :
    Audience.ofTokens d.tokens = .unnamed ↔ Nameless d := by
  by_cases htext : ∃ s, d = .text (.sound s)
  · obtain ⟨s, rfl⟩ := htext
    exact iff_of_false nofun fun h => h.not_text s rfl
  have hnot : ∀ s, d ≠ .text (.sound s) := fun s hs => htext ⟨s, hs⟩
  rw [ofTokens_eq fun s h => hnot s (tokens_inj h), nesting_eq_depth]
  by_cases hread : maxNesting < d.depth ∨ (!endsBehind d.tokens) = true
  · rw [if_pos hread]
    refine iff_of_false nofun fun h => ?_
    rcases hread with hdeep | hstuck
    · exact absurd h.depth (Nat.not_le.2 hdeep)
    · rw [(endsBehind_iff d).2 h.ends] at hstuck
      cases hstuck
  · rw [if_neg hread]
    simp only [not_or, Nat.not_lt, Bool.not_eq_true, Bool.not_eq_false'] at hread
    obtain ⟨hdepth, hends⟩ := hread
    -- a reader of lists of texts is asked what is left
    cases htexts : readTexts d.tokens with
    | ok r =>
        refine iff_of_false nofun fun h => ?_
        obtain ⟨e, he⟩ := (ne_texts_iff d).1 h.not_texts
        rw [htexts] at he
        cases he
    | error e =>
        exact iff_of_true rfl
          ⟨hdepth, (endsBehind_iff d).1 hends, hnot, (ne_texts_iff d).2 ⟨e, htexts⟩⟩

/-- **A value of `nbf`** is passed over exactly if the reader stands behind it, whatever it is. -/
theorem isPassable_tokens (d : Document) : isPassable d.tokens = true ↔ Passable d := by
  cases d with
  | null => exact endsBehind_iff .null
  | bool b => exact endsBehind_iff (.bool b)
  | number n => exact endsBehind_iff (.number n)
  | text s => exact endsBehind_iff (.text s)
  | array items =>
      cases items with
      | nil => exact iff_of_true rfl rfl
      | cons d items =>
          -- an item follows the bracket, and no value begins with a closing one
          obtain ⟨t, ts, hts, hend, -⟩ := exists_first d
          have htokens : (Document.array (d :: items)).tokens =
              .beginArray :: t :: (ts ++ itemsAfter items) := by
            rw [Document.tokens, hts]
            rfl
          refine iff_of_false ?_ nofun
          rw [htokens, isPassable.eq_def]
          split
          · next h => exact absurd (List.cons.inj (List.cons.inj h).2).1 hend
          · next h => cases h
          · exact nofun
          · exact nofun
          · next h _ => exact absurd rfl (h _)
  | object members =>
      cases members with
      | nil => exact iff_of_true rfl rfl
      | cons m members => exact iff_of_false nofun nofun

/-! ## Payloads -/

/-- A member is split off with the tokens of its value. -/
theorem membersOf_cons (fuel : Nat) {t : Json.Token} (ht : t = .beginObject ∨ t = .comma)
    (name : String) (d : Document) (rest : List Json.Token) :
    membersOf (fuel + 1) (t :: .text (.sound name) :: .colon :: (d.tokens ++ rest)) =
      (name, d.tokens) :: membersOf fuel rest := by
  have hskip : skipValue (d.tokens ++ rest) = .ok ((), rest) := skipValue_eq_ok_iff.2 ⟨d, rfl⟩
  have htake : (d.tokens ++ rest).take ((d.tokens ++ rest).length - rest.length) = d.tokens := by
    rw [List.length_append, Nat.add_sub_cancel]
    exact List.take_left
  rcases ht with rfl | rfl
  · rw [membersOf]
    simp only [hskip, htake]
  · rw [membersOf]
    simp only [hskip, htake]

/-- The members that follow the first bracket or a member, each with the tokens of its value. -/
theorem membersOf_namedAfter {fuel : Nat} {members : List (String × Document)}
    (h : members.length < fuel) :
    membersOf fuel (namedAfter members) = members.map fun m => (m.1, m.2.tokens) := by
  induction members generalizing fuel with
  | nil =>
      obtain ⟨fuel, rfl⟩ := Nat.exists_eq_add_one_of_ne_zero (Nat.ne_zero_of_lt h)
      rfl
  | cons m members ih =>
      obtain ⟨fuel, rfl⟩ := Nat.exists_eq_add_one_of_ne_zero (Nat.ne_zero_of_lt h)
      refine (membersOf_cons fuel (Or.inr rfl) m.1 m.2 (namedAfter members)).trans ?_
      rw [ih (Nat.lt_of_succ_lt_succ h), List.map_cons]

/-- The members of an object, each with the tokens of its value. -/
theorem membersOf_ofMembers {fuel : Nat} {members : List (String × Document)}
    (h : members.length < fuel) : membersOf fuel (Document.ofMembers members).tokens =
      members.map fun m => (m.1, m.2.tokens) := by
  obtain ⟨fuel, rfl⟩ := Nat.exists_eq_add_one_of_ne_zero (Nat.ne_zero_of_lt h)
  cases members with
  | nil => rfl
  | cons m members =>
      refine (membersOf_cons fuel (Or.inl rfl) m.1 m.2 (namedAfter members)).trans ?_
      rw [membersOf_namedAfter (Nat.lt_of_succ_lt_succ h), List.map_cons]

/-- Whether the members of a payload name nobody else: `aud` and `nbf` occur at most once each, and
both can be passed over. -/
structure Unaddressed (members : List (String × Document)) : Prop where
  aud_once : (members.filter (·.1 = "aud")).length ≤ 1
  nbf_once : (members.filter (·.1 = "nbf")).length ≤ 1
  aud : ∀ d, ("aud", d) ∈ members → Nameless d
  nbf : ∀ d, ("nbf", d) ∈ members → Passable d

/-- The tokens of the values under a name. -/
theorem valuesOf_ofMembers (members : List (String × Document)) (name : String) :
    ((members.map fun m => (m.1, m.2.tokens)).filter (·.1 = name)).map (·.2) =
      (members.filter (·.1 = name)).map (·.2.tokens) := by
  rw [List.filter_map, List.map_map]
  rfl

/-- The same in terms of the rows of values under the two names. -/
theorem unaddressed_iff (members : List (String × Document)) : Unaddressed members ↔
    (members.filter (·.1 = "aud")).length ≤ 1 ∧ (members.filter (·.1 = "nbf")).length ≤ 1 ∧
      (∀ m ∈ members.filter (·.1 = "aud"), Nameless m.2) ∧
        ∀ m ∈ members.filter (·.1 = "nbf"), Passable m.2 := by
  have hvalues : ∀ (name : String) (P : Document → Prop),
      (∀ d, (name, d) ∈ members → P d) ↔ ∀ m ∈ members.filter (·.1 = name), P m.2 := by
    intro name P
    constructor
    · intro h m hm
      obtain ⟨hmem, hname⟩ := List.mem_filter.1 hm
      obtain rfl : m.1 = name := by simpa using hname
      exact h m.2 hmem
    · intro h d hd
      exact h (name, d) (List.mem_filter.2 ⟨hd, by simp⟩)
  rw [← hvalues, ← hvalues]
  exact ⟨fun h => ⟨h.1, h.2, h.3, h.4⟩, fun h => ⟨h.1, h.2.1, h.2.2.1, h.2.2.2⟩⟩

/-- **The audience of a payload** is nobody exactly if its members name nobody else. -/
theorem audienceOf_eq_unnamed_iff (members : List (String × Document)) :
    audienceOf (Document.ofMembers members).tokens = .unnamed ↔ Unaddressed members := by
  have hfuel : members.length < (Document.ofMembers members).tokens.length + 1 := by
    have hle := length_le_named true members
    rw [tokens_eq_named, List.length_cons]
    omega
  have hhead : (Document.ofMembers members).tokens.head? = some .beginObject := by
    rw [tokens_eq_named, List.head?_cons]
  unfold audienceOf
  rw [membersOf_ofMembers hfuel, hhead]
  simp only [valuesOf_ofMembers]
  rw [unaddressed_iff]
  generalize members.filter (·.1 = "aud") = aud
  generalize members.filter (·.1 = "nbf") = nbf
  have hpassable : (nbf.map (·.2.tokens)).all isPassable = true ↔ ∀ m ∈ nbf, Passable m.2 := by
    rw [List.all_map, List.all_eq_true]
    exact forall₂_congr fun m _ => isPassable_tokens m.2
  by_cases hall : ∀ m ∈ nbf, Passable m.2
  · rw [hpassable.2 hall]
    simp only [List.length_map, Bool.not_true, Bool.false_eq_true, ne_eq, not_true_eq_false,
      or_false]
    by_cases hmany : 1 < aud.length ∨ 1 < nbf.length
    · rw [if_pos hmany]
      exact iff_of_false nofun fun h => by omega
    · rw [if_neg hmany]
      match aud with
      | [] => exact iff_of_true rfl ⟨Nat.zero_le _, by omega, nofun, hall⟩
      | m :: rest =>
          obtain rfl : rest = [] := by
            rw [List.length_cons] at hmany
            exact List.length_eq_zero_iff.1 (by omega)
          refine (ofTokens_eq_unnamed_iff m.2).trans ?_
          constructor
          · intro h
            exact ⟨Nat.le_refl _, by omega, List.forall_mem_singleton.2 h, hall⟩
          · intro h
            exact h.2.2.1 m List.mem_cons_self
  · have hfails : (nbf.map (·.2.tokens)).all isPassable = false :=
      Bool.eq_false_iff.2 (mt hpassable.1 hall)
    rw [if_pos (Or.inr (Or.inr (Or.inl (by rw [hfails]; rfl))))]
    exact iff_of_false nofun fun h => hall h.2.2.2

/-- No audience is read from an array. -/
theorem audienceOf_array (items : List Document) :
    audienceOf (Document.array items).tokens = .unreadable := by
  obtain ⟨ts, hts⟩ := tokens_array items
  unfold audienceOf
  rw [hts]
  exact if_pos (Or.inr (Or.inr (Or.inr nofun)))

end Gatehouse.KeyedSigner
