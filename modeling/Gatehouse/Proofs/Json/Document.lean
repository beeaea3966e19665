import Gatehouse.Json.Shape

/-!
# Gatehouse.Proofs.Json.Document — documents and the tokens that spell them

The readers of this library work on a flat list of tokens and keep no tree.  What they accept is
best said of trees all the same, so a `Document` is the tree that a reader never builds, and
`Document.tokens` is what it spells.  Every statement about a reader has the form "it accepts these
tokens exactly if they are those of such a document".

For that two facts are needed, and they are the main results.

* `skipValue_eq_ok_iff`: a value is skipped exactly if the tokens begin with those of a document.
  The reader has a stack of open brackets and a state, so the direction from reading to documents is
  an induction on its run, with `Fits` for the invariant: what a state within open brackets still
  takes are the rest of a document and what closes the brackets.
* `tokens_append_inj`: tokens that begin with those of a document begin with those of no other, so
  one may speak of *the* document that tokens spell.

A document is as faithful as a token is and no more: a numeral that is no integer has lost its
digits here, and a string without a text only knows where its reader stops.
-/

namespace Gatehouse.Json

/-! ## Documents -/

/-- A JSON document as far as a reader can tell it from its tokens.  A string may be flawed, be it a
name or a value: it then holds a byte of no character or half of a surrogate pair. -/
inductive Document where
  | null
  | bool (b : Bool)
  | number (n : Numeral)
  | text (s : Quoted)
  | array (items : List Document)
  | object (members : List (Quoted × Document))

namespace Document

mutual

/-- The tokens of a document. -/
def tokens : Document → List Token
  | .null => [.null]
  | .bool b => [.bool b]
  | .number n => [.number n]
  | .text s => [.text s]
  | .array [] => [.beginArray, .endArray]
  | .array (d :: rest) => .beginArray :: d.tokens ++ itemsAfter rest
  | .object [] => [.beginObject, .endObject]
  | .object ((name, d) :: rest) =>
    .beginObject :: .text name :: .colon :: d.tokens ++ membersAfter rest

/-- The tokens of the items that follow another one, and of the end of their array. -/
def itemsAfter : List Document → List Token
  | [] => [.endArray]
  | d :: rest => .comma :: d.tokens ++ itemsAfter rest

/-- The tokens of the members that follow another one, and of the end of their object. -/
def membersAfter : List (Quoted × Document) → List Token
  | [] => [.endObject]
  | (name, d) :: rest => .comma :: .text name :: .colon :: d.tokens ++ membersAfter rest

end

/-! ## Skipping what a document spells -/

/-- Goes on behind a value. -/
def resume (inObject : List Bool) (rest : List Token) : Option (List Token) :=
  if inObject.isEmpty then some rest else skipWithin inObject .commaOrEnd rest

/-- The first token of a document does not end an array. -/
theorem skipWithin_valueOrEnd (d : Document) (outer : List Bool) (rest : List Token) :
    skipWithin outer .valueOrEnd (d.tokens ++ rest) =
      skipWithin outer .value (d.tokens ++ rest) := by
  cases d with
  | null | bool | number | text => rfl
  | array items => cases items with | nil | cons => rfl
  | object members => cases members with | nil | cons => rfl

mutual

/-- The tokens of a document are skipped, whatever follows them. -/
theorem skipWithin_tokens (d : Document) (inObject : List Bool) (rest : List Token) :
    skipWithin inObject .value (d.tokens ++ rest) = resume inObject rest := by
  match d with
  | .null | .bool _ | .number _ | .text _ => rfl
  | .array [] | .object [] => cases inObject with | nil | cons => rfl
  | .array (d :: items) =>
      show skipWithin (false :: inObject) .valueOrEnd ((d.tokens ++ itemsAfter items) ++ rest) = _
      rw [List.append_assoc, skipWithin_valueOrEnd, skipWithin_tokens d]
      exact skipWithin_itemsAfter items inObject rest
  | .object ((name, d) :: members) =>
      show skipWithin (true :: inObject) .value ((d.tokens ++ membersAfter members) ++ rest) = _
      rw [List.append_assoc, skipWithin_tokens d]
      exact skipWithin_membersAfter members inObject rest

/-- What follows an item is skipped up to the end of its array, and what is outside of it goes
on. -/
theorem skipWithin_itemsAfter (items : List Document) (outer : List Bool) (rest : List Token) :
    skipWithin (false :: outer) .commaOrEnd (itemsAfter items ++ rest) = resume outer rest := by
  match items with
  | [] => cases outer with | nil | cons => rfl
  | d :: items =>
      show skipWithin (false :: outer) .value ((d.tokens ++ itemsAfter items) ++ rest) = _
      rw [List.append_assoc, skipWithin_tokens d]
      exact skipWithin_itemsAfter items outer rest

/-- The same of the members of an object. -/
theorem skipWithin_membersAfter (members : List (Quoted × Document)) (outer : List Bool)
    (rest : List Token) :
    skipWithin (true :: outer) .commaOrEnd (membersAfter members ++ rest) = resume outer rest := by
  match members with
  | [] => cases outer with | nil | cons => rfl
  | (name, d) :: members =>
      show skipWithin (true :: outer) .value ((d.tokens ++ membersAfter members) ++ rest) = _
      rw [List.append_assoc, skipWithin_tokens d]
      exact skipWithin_membersAfter members outer rest

end

/-! ## What is skipped is a document -/

/-- What closes some open brackets, innermost first, behind a value within them. -/
def Closes : List Bool → List Token → Prop
  | [], ts => ts = []
  | false :: outer, ts => ∃ items rest, ts = itemsAfter items ++ rest ∧ Closes outer rest
  | true :: outer, ts => ∃ members rest, ts = membersAfter members ++ rest ∧ Closes outer rest

/-- A document within some open brackets, and what closes them. -/
def Leads (inObject : List Bool) (ts : List Token) : Prop :=
  ∃ (d : Document) (rest : List Token), ts = d.tokens ++ rest ∧ Closes inObject rest

/-- What may come next within some open brackets, up to where they are closed. -/
def Fits (inObject : List Bool) : Expected → List Token → Prop
  | .value, ts => Leads inObject ts
  | .valueOrEnd, ts =>
    (∃ rest, ts = .endArray :: rest ∧ Closes inObject.tail rest) ∨ Leads inObject ts
  | .colon, ts => ∃ rest, ts = .colon :: rest ∧ Leads inObject rest
  | .key, ts => ∃ name rest, ts = .text name :: .colon :: rest ∧ Leads inObject rest
  | .keyOrEnd, ts =>
    (∃ rest, ts = .endObject :: rest ∧ Closes inObject.tail rest) ∨
      ∃ name rest, ts = .text name :: .colon :: rest ∧ Leads inObject rest
  | .commaOrEnd, ts => Closes inObject ts

/-- Whether something can come next within some open brackets. -/
def Apt (inObject : List Bool) : Expected → Prop
  | .value => True
  | .valueOrEnd => inObject.head? = some false
  | .key | .keyOrEnd | .colon => inObject.head? = some true
  | .commaOrEnd => inObject ≠ []

/-- The document that a token spells alone. -/
def scalar? : Token → Option Document
  | .null => some .null
  | .bool b => some (.bool b)
  | .number n => some (.number n)
  | .text s => some (.text s)
  | _ => none

/-- The tokens of a document that one token spells alone are this token. -/
theorem tokens_of_scalar? {t : Token} {d : Document} (h : scalar? t = some d) :
    d.tokens = [t] := by
  cases t with
  | null | bool | number | text =>
      cases h
      rfl
  | _ => cases h

/-- A value of one token, and what closes the brackets around it. -/
theorem leads_scalar {inObject : List Bool} {t : Token} {d : Document} {ts : List Token}
    (hscalar : scalar? t = some d) (hcloses : Closes inObject ts) : Leads inObject (t :: ts) := by
  refine ⟨d, ts, ?_, hcloses⟩
  rw [tokens_of_scalar? hscalar]
  rfl

theorem fits_beginArray {inObject : List Bool} {ts : List Token}
    (h : Fits (false :: inObject) .valueOrEnd ts) : Fits inObject .value (.beginArray :: ts) := by
  rcases h with ⟨rest, rfl, hrest⟩ | ⟨d, rest, rfl, items, rest', rfl, hrest⟩
  · exact ⟨.array [], rest, rfl, hrest⟩
  · refine ⟨.array (d :: items), rest', ?_, hrest⟩
    simp [tokens]

theorem fits_beginObject {inObject : List Bool} {ts : List Token}
    (h : Fits (true :: inObject) .keyOrEnd ts) : Fits inObject .value (.beginObject :: ts) := by
  rcases h with ⟨rest, rfl, hrest⟩ | ⟨name, _, rfl, d, rest, rfl, members, rest', rfl, hrest⟩
  · exact ⟨.object [], rest, rfl, hrest⟩
  · refine ⟨.object ((name, d) :: members), rest', ?_, hrest⟩
    simp [tokens]

/-- Behind a comma there is the next item or the next member, depending on the bracket it stands
in. -/
theorem closes_comma {b : Bool} {outer : List Bool} {ts : List Token}
    (h : Fits (b :: outer) (if (b :: outer).head? = some true then .key else .value) ts) :
    Closes (b :: outer) (.comma :: ts) := by
  cases b with
  | false =>
      obtain ⟨d, rest, rfl, items, rest', rfl, hrest⟩ := h
      exact ⟨d :: items, rest', by simp [itemsAfter], hrest⟩
  | true =>
      obtain ⟨name, _, rfl, d, rest, rfl, members, rest', rfl, hrest⟩ := h
      exact ⟨(name, d) :: members, rest', by simp [membersAfter], hrest⟩

/-- A bracket that is closed: outside of it nothing more is skipped, or it goes on. -/
theorem closes_of_closed {b : Bool} {outer : List Bool} {ts rest : List Token}
    (h : (match b :: outer with
      | [] => none
      | [_] => some ts
      | _ :: outer => skipWithin outer .commaOrEnd ts) = some rest)
    (ih : skipWithin outer .commaOrEnd ts = some rest → Apt outer .commaOrEnd →
      ∃ skipped, ts = skipped ++ rest ∧ Fits outer .commaOrEnd skipped) :
    ∃ skipped, ts = skipped ++ rest ∧ Closes outer skipped := by
  cases outer with
  | nil =>
      cases h
      exact ⟨[], rfl, rfl⟩
  | cons c outer => exact ih h (List.cons_ne_nil _ _)

/-- **What is skipped.**  Whatever is skipped within some open brackets fits what was expected. -/
theorem fits_of_skipWithin {inObject : List Bool} {expected : Expected} {ts rest : List Token}
    (h : skipWithin inObject expected ts = some rest) (hapt : Apt inObject expected) :
    ∃ skipped, ts = skipped ++ rest ∧ Fits inObject expected skipped := by
  fun_induction skipWithin inObject expected ts with
  | case1 | case9 | case11 | case32 => cases h
  | case2 inObject ts ih2 ih1 =>
      obtain ⟨skipped, rfl, hfits⟩ := ih1 h trivial
      exact ⟨.colon :: skipped, rfl, skipped, rfl, hfits⟩
  | case3 inObject ts name ih2 ih1 =>
      obtain ⟨_, rfl, skipped, rfl, hfits⟩ := ih1 h hapt
      exact ⟨.text name :: .colon :: skipped, rfl, name, skipped, rfl, hfits⟩
  | case4 inObject ts name ih2 ih1 =>
      obtain ⟨_, rfl, skipped, rfl, hfits⟩ := ih1 h hapt
      exact ⟨.text name :: .colon :: skipped, rfl, Or.inr ⟨name, skipped, rfl, hfits⟩⟩
  -- brackets that are closed, and the comma between two values
  | case5 inObject ts closed ih =>
      obtain ⟨outer, rfl⟩ := List.head?_eq_some_iff.1 hapt
      obtain ⟨skipped, rfl, hcloses⟩ := closes_of_closed h (ih outer)
      exact ⟨.endObject :: skipped, rfl, Or.inl ⟨skipped, rfl, hcloses⟩⟩
  | case6 inObject ts closed ih =>
      obtain ⟨outer, rfl⟩ := List.head?_eq_some_iff.1 hapt
      obtain ⟨skipped, rfl, hcloses⟩ := closes_of_closed h (ih outer)
      exact ⟨.endArray :: skipped, rfl, Or.inl ⟨skipped, rfl, hcloses⟩⟩
  | case7 inObject ts ih2 ih1 =>
      obtain ⟨b, outer, rfl⟩ := List.exists_cons_of_ne_nil hapt
      have hnext : Apt (b :: outer)
          (if (b :: outer).head? = some true then .key else .value) := by
        cases b with
        | false => trivial
        | true => rfl
      obtain ⟨skipped, rfl, hfits⟩ := ih1 h hnext
      exact ⟨.comma :: skipped, rfl, closes_comma hfits⟩
  | case8 inObject ts closed hobject ih =>
      obtain ⟨outer, rfl⟩ := List.head?_eq_some_iff.1 hobject
      obtain ⟨skipped, rfl, hcloses⟩ := closes_of_closed h (ih outer)
      exact ⟨.endObject :: skipped, rfl, [], skipped, rfl, hcloses⟩
  | case10 inObject ts closed harray ih =>
      obtain ⟨outer, rfl⟩ := List.head?_eq_some_iff.1 harray
      obtain ⟨skipped, rfl, hcloses⟩ := closes_of_closed h (ih outer)
      exact ⟨.endArray :: skipped, rfl, [], skipped, rfl, hcloses⟩
  -- brackets that are opened, each where a value must stand and where one may
  | case12 inObject ts ih2 ih1 =>
      obtain ⟨skipped, rfl, hfits⟩ := ih1 h rfl
      exact ⟨.beginObject :: skipped, rfl, fits_beginObject hfits⟩
  | case13 inObject ts ih2 ih1 =>
      obtain ⟨skipped, rfl, hfits⟩ := ih1 h rfl
      exact ⟨.beginObject :: skipped, rfl, Or.inr (fits_beginObject hfits)⟩
  | case14 inObject ts ih2 ih1 =>
      obtain ⟨skipped, rfl, hfits⟩ := ih1 h rfl
      exact ⟨.beginArray :: skipped, rfl, fits_beginArray hfits⟩
  | case15 inObject ts ih2 ih1 =>
      obtain ⟨skipped, rfl, hfits⟩ := ih1 h rfl
      exact ⟨.beginArray :: skipped, rfl, Or.inr (fits_beginArray hfits)⟩
  -- values of one token, outside of all brackets and then within some
  | case16 inObject ts hempty | case18 inObject ts _ hempty | case20 inObject ts _ hempty
  | case22 inObject ts _ hempty =>
      cases h
      obtain rfl := List.isEmpty_iff.1 hempty
      exact ⟨[_], rfl, leads_scalar rfl rfl⟩
  | case24 inObject ts hempty | case26 inObject ts _ hempty | case28 inObject ts _ hempty
  | case30 inObject ts _ hempty =>
      cases h
      obtain rfl := List.isEmpty_iff.1 hempty
      exact ⟨[_], rfl, Or.inr (leads_scalar rfl rfl)⟩
  | case17 inObject ts hopen ih2 ih1 | case19 inObject ts _ hopen ih2 ih1
  | case21 inObject ts _ hopen ih2 ih1 | case23 inObject ts _ hopen ih2 ih1 =>
      obtain ⟨skipped, rfl, hcloses⟩ := ih1 h (mt List.isEmpty_iff.2 hopen)
      exact ⟨_ :: skipped, rfl, leads_scalar rfl hcloses⟩
  | case25 inObject ts hopen ih2 ih1 | case27 inObject ts _ hopen ih2 ih1
  | case29 inObject ts _ hopen ih2 ih1 | case31 inObject ts _ hopen ih2 ih1 =>
      obtain ⟨skipped, rfl, hcloses⟩ := ih1 h (mt List.isEmpty_iff.2 hopen)
      exact ⟨_ :: skipped, rfl, Or.inr (leads_scalar rfl hcloses)⟩

/-- **Skipping.**  A value is skipped exactly if the tokens begin with those of a document, and what
follows them is left. -/
theorem skipValue_eq_ok_iff {ts rest : List Token} :
    skipValue ts = .ok ((), rest) ↔ ∃ d : Document, ts = d.tokens ++ rest := by
  have hskip : skipValue ts = .ok ((), rest) ↔ skipWithin [] .value ts = some rest := by
    unfold skipValue
    cases skipWithin [] .value ts with
    | none => exact iff_of_false nofun nofun
    | some rest' => simp
  rw [hskip]
  constructor
  · intro h
    obtain ⟨skipped, rfl, d, rest', rfl, hcloses⟩ := fits_of_skipWithin h trivial
    obtain rfl : rest' = [] := hcloses
    exact ⟨d, by rw [List.append_nil]⟩
  · rintro ⟨d, rfl⟩
    exact skipWithin_tokens d [] rest

/-! ## First tokens -/

theorem tokens_array (items : List Document) :
    ∃ ts, (Document.array items).tokens = .beginArray :: ts := by
  cases items with
  | nil => exact ⟨_, rfl⟩
  | cons d items => exact ⟨_, rfl⟩

theorem tokens_object (members : List (Quoted × Document)) :
    ∃ ts, (Document.object members).tokens = .beginObject :: ts := by
  cases members with
  | nil => exact ⟨_, rfl⟩
  | cons m members => exact ⟨_, rfl⟩

/-- The first token of a document neither ends an array nor is a comma. -/
theorem exists_first (d : Document) :
    ∃ t ts, d.tokens = t :: ts ∧ t ≠ .endArray ∧ t ≠ .comma := by
  cases d with
  | null | bool | number | text => exact ⟨_, _, rfl, nofun, nofun⟩
  | array items =>
      obtain ⟨ts, hts⟩ := tokens_array items
      exact ⟨_, _, hts, nofun, nofun⟩
  | object members =>
      obtain ⟨ts, hts⟩ := tokens_object members
      exact ⟨_, _, hts, nofun, nofun⟩

/-- A token that spells a document alone begins no other. -/
theorem eq_of_scalar? {t : Token} {d e : Document} {ts us : List Token}
    (hscalar : scalar? t = some d) (h : t :: ts = e.tokens ++ us) : d = e ∧ ts = us := by
  cases e with
  | null | bool | number | text =>
      cases h
      cases hscalar
      exact ⟨rfl, rfl⟩
  | array items =>
      obtain ⟨ts', hts⟩ := tokens_array items
      rw [hts] at h
      cases h
      cases hscalar
  | object members =>
      obtain ⟨ts', hts⟩ := tokens_object members
      rw [hts] at h
      cases h
      cases hscalar

theorem eq_array_of_tokens {e : Document} {ts us : List Token}
    (h : .beginArray :: ts = e.tokens ++ us) : ∃ items, e = .array items := by
  cases e with
  | null | bool | number | text => cases h
  | array items => exact ⟨items, rfl⟩
  | object members => cases members with | nil | cons => cases h

theorem eq_object_of_tokens {e : Document} {ts us : List Token}
    (h : .beginObject :: ts = e.tokens ++ us) : ∃ members, e = .object members := by
  cases e with
  | null | bool | number | text => cases h
  | array items => cases items with | nil | cons => cases h
  | object members => exact ⟨members, rfl⟩

/-! ## Tokens tell documents apart -/

mutual

/-- **No ambiguity.**  Tokens that begin with those of a document begin with those of no other. -/
theorem tokens_append_inj (d e : Document) {ts us : List Token}
    (h : d.tokens ++ ts = e.tokens ++ us) : d = e ∧ ts = us := by
  match d with
  | .null | .bool _ | .number _ | .text _ => exact eq_of_scalar? rfl h
  | .array [] =>
      obtain ⟨items', rfl⟩ := eq_array_of_tokens h
      cases items' with
      | nil =>
          cases h
          exact ⟨rfl, rfl⟩
      | cons e items' =>
          -- no document begins with a closing bracket
          obtain ⟨t, ts', hts, hend, -⟩ := exists_first e
          simp only [tokens, hts, List.cons_append, List.nil_append, List.cons.injEq] at h
          exact absurd h.2.1.symm hend
  | .array (d :: items) =>
      obtain ⟨items', rfl⟩ := eq_array_of_tokens h
      cases items' with
      | nil =>
          obtain ⟨t, ts', hts, hend, -⟩ := exists_first d
          simp only [tokens, hts, List.cons_append, List.nil_append, List.cons.injEq] at h
          exact absurd h.2.1 hend
      | cons e items' =>
          simp only [tokens, List.cons_append, List.append_assoc, List.cons.injEq] at h
          -- the first items are the same, and so are those behind them
          obtain ⟨rfl, hrest⟩ := tokens_append_inj d e h.2
          obtain ⟨rfl, rfl⟩ := itemsAfter_append_inj items items' hrest
          exact ⟨rfl, rfl⟩
  | .object [] =>
      obtain ⟨members', rfl⟩ := eq_object_of_tokens h
      cases members' with
      | nil =>
          cases h
          exact ⟨rfl, rfl⟩
      | cons m members' => cases h
  | .object ((name, d) :: members) =>
      obtain ⟨members', rfl⟩ := eq_object_of_tokens h
      cases members' with
      | nil => cases h
      | cons m members' =>
          obtain ⟨name', e⟩ := m
          simp only [tokens, List.cons_append, List.append_assoc, List.cons.injEq,
            Token.text.injEq] at h
          obtain ⟨-, rfl, -, h⟩ := h
          obtain ⟨rfl, hrest⟩ := tokens_append_inj d e h
          obtain ⟨rfl, rfl⟩ := membersAfter_append_inj members members' hrest
          exact ⟨rfl, rfl⟩

/-- Items that follow another one are told apart by the comma or the bracket that comes next, and
then by their tokens. -/
theorem itemsAfter_append_inj (items items' : List Document) {ts us : List Token}
    (h : itemsAfter items ++ ts = itemsAfter items' ++ us) : items = items' ∧ ts = us := by
  match items, items' with
  | [], [] =>
      cases h
      exact ⟨rfl, rfl⟩
  | [], _ :: _ | _ :: _, [] => cases h
  | d :: items, e :: items' =>
      simp only [itemsAfter, List.cons_append, List.append_assoc, List.cons.injEq] at h
      obtain ⟨rfl, hrest⟩ := tokens_append_inj d e h.2
      obtain ⟨rfl, rfl⟩ := itemsAfter_append_inj items items' hrest
      exact ⟨rfl, rfl⟩

/-- So are members, by their names as well. -/
theorem membersAfter_append_inj (members members' : List (Quoted × Document))
    {ts us : List Token} (h : membersAfter members ++ ts = membersAfter members' ++ us) :
    members = members' ∧ ts = us := by
  match members, members' with
  | [], [] =>
      cases h
      exact ⟨rfl, rfl⟩
  | [], _ :: _ | _ :: _, [] => cases h
  | (name, d) :: members, (name', e) :: members' =>
      simp only [membersAfter, List.cons_append, List.append_assoc, List.cons.injEq,
        Token.text.injEq] at h
      obtain ⟨-, rfl, -, h⟩ := h
      obtain ⟨rfl, hrest⟩ := tokens_append_inj d e h
      obtain ⟨rfl, rfl⟩ := membersAfter_append_inj members members' hrest
      exact ⟨rfl, rfl⟩

end

theorem tokens_inj {d e : Document} (h : d.tokens = e.tokens) : d = e :=
  (tokens_append_inj d e (congrArg (· ++ []) h)).1

end Document

end Gatehouse.Json
