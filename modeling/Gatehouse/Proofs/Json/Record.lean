import Mathlib.Data.List.Nodup
import Gatehouse.Proofs.Json.Datum

/-!
# Gatehouse.Proofs.Json.Record — what a document says as a record

An object is a record if its members spell the fields by name (`Field.SpelledBy`), an array if its
items spell them in their order (`Elements`); `IsRecord` is either.  `readRecord_eq_ok_iff` is the
main result: a record is read from the tokens of the documents that are one.

The members of an object fill slots one after the other (`Fills`), which comes to the same as what
they spell by name (`filledBy_of_fills`, `fills_of_filledBy`).

The two descriptions of an object answer to two uses.  A reader goes from member to member and knows
nothing of those to come, so what it does is an induction on the members, with the slots that are
filled so far: a member whose name nobody asks for is skipped, one whose slot is free fills it, and
one whose slot is full is refused.  A statement about objects should not depend on the order of the
members, and so it speaks of each field by itself: one member alone has its name and spells its
value, or none has.

In an array there are no names, so values stand in the order of the fields, and only at the end may
some be left out, each of which must have a default.  No more items may follow than there are
fields.
-/

namespace Gatehouse.Json

open Document

/-! ## Slots -/

namespace Slots

variable {fields : List Field} {slots slots' : Slots} {name : String} {v : Datum}

theorem get_cons (f : Field) (fields : List Field) (slot : Option Datum) (slots : Slots)
    (name : String) : get (f :: fields) (slot :: slots) name =
      if f.name = name then slot else get fields slots name := by
  unfold get
  by_cases h : f.name = name
  · rw [if_pos h, List.zip_cons_cons, List.find?_cons_of_pos (by simpa using h)]
    rfl
  · rw [if_neg h, List.zip_cons_cons, List.find?_cons_of_neg (by simpa using h)]

/-- There is one slot for each field, before and after. -/
theorem length_set (hlength : slots.length = fields.length) (name : String) (v : Datum) :
    (slots.set fields name v).length = fields.length := by
  unfold set
  rw [List.length_zipWith, hlength, Nat.min_self]

/-- A slot that is filled, and the others. -/
theorem get_set (hlength : slots.length = fields.length) {f : Field} (hf : f ∈ fields)
    (name : String) (v : Datum) : (slots.set fields name v).get fields f.name =
      if f.name = name then some v else slots.get fields f.name := by
  induction fields generalizing slots with
  | nil => cases hf
  | cons g fields ih =>
      cases slots with
      | nil => cases hlength
      | cons slot slots =>
          have hset : set (g :: fields) (slot :: slots) name v =
              (if g.name = name then some v else slot) :: set fields slots name v := rfl
          rw [hset, get_cons, get_cons]
          by_cases hg : g.name = f.name
          · rw [if_pos hg, if_pos hg, hg]
          · rw [if_neg hg, if_neg hg]
            rcases List.mem_cons.1 hf with rfl | hf
            · exact absurd rfl hg
            · exact ih (Nat.succ.inj hlength) hf

/-- Slots are equal if they are the same by name, where no two fields have one name. -/
theorem ext (hnodup : (fields.map Field.name).Nodup) (hlength : slots.length = fields.length)
    (hlength' : slots'.length = fields.length)
    (h : ∀ f ∈ fields, slots.get fields f.name = slots'.get fields f.name) : slots = slots' := by
  induction fields generalizing slots slots' with
  | nil =>
      rw [List.length_eq_zero_iff.1 hlength, List.length_eq_zero_iff.1 hlength']
  | cons g fields ih =>
      obtain ⟨slot, slots, rfl⟩ := List.exists_cons_of_length_eq_add_one hlength
      obtain ⟨slot', slots', rfl⟩ := List.exists_cons_of_length_eq_add_one hlength'
      rw [List.map_cons, List.nodup_cons] at hnodup
      have hhead := h g List.mem_cons_self
      rw [get_cons, get_cons, if_pos rfl, if_pos rfl] at hhead
      have htail : slots = slots' := by
        refine ih hnodup.2 (Nat.succ.inj hlength) (Nat.succ.inj hlength') ?_
        intro f hf
        have hne : g.name ≠ f.name := fun heq => hnodup.1 (heq ▸ List.mem_map_of_mem hf)
        have hget := h f (List.mem_cons_of_mem _ hf)
        rwa [get_cons, get_cons, if_neg hne, if_neg hne] at hget
      rw [hhead, htail]

/-- At first every slot is free. -/
theorem get_none (fields : List Field) (name : String) :
    get fields (fields.map fun _ => none) name = none := by
  induction fields with
  | nil => rfl
  | cons f fields ih =>
      rw [List.map_cons, get_cons, ih, ite_self]

end Slots

/-! ## Members of an object -/

/-- The object of some named documents. -/
def Document.ofMembers (members : List (String × Document)) : Document :=
  .object (members.map fun m => (.sound m.1, m.2))

/-- The tokens of named documents that follow another one, and of the end of their object. -/
def namedAfter (members : List (String × Document)) : List Token :=
  membersAfter (members.map fun m => (.sound m.1, m.2))

/-- The tokens of named documents at the beginning of their object or behind another one. -/
def named (first : Bool) : List (String × Document) → List Token
  | [] => [.endObject]
  | (name, d) :: rest =>
    let tail := .text (.sound name) :: .colon :: d.tokens ++ namedAfter rest
    if first then tail else .comma :: tail

theorem named_false (members : List (String × Document)) :
    named false members = namedAfter members := by
  cases members with | nil | cons => rfl

theorem tokens_eq_named (members : List (String × Document)) :
    (Document.ofMembers members).tokens = .beginObject :: named true members := by
  cases members with | nil | cons => rfl

/-- Fills slots by members, one after the other. -/
inductive Fills (fields : List Field) : Slots → List (String × Document) → Slots → Prop where
  | done (slots : Slots) : Fills fields slots [] slots
  | unknown {slots slots' : Slots} {name : String} {d : Document}
    {members : List (String × Document)} (hname : fields.find? (fun f => f.name = name) = none)
    (h : Fills fields slots members slots') : Fills fields slots ((name, d) :: members) slots'
  | known {slots slots' : Slots} {name : String} {d : Document} {v : Datum} {f : Field}
    {members : List (String × Document)} (hname : fields.find? (fun f => f.name = name) = some f)
    (hfree : slots.get fields name = none) (hvalue : f.shape.Spells d v)
    (h : Fills fields (slots.set fields name v) members slots') :
    Fills fields slots ((name, d) :: members) slots'

/-- Reads a member behind its name, and the members after it. -/
def readMember (fields : List Field) (fuel : Nat) (slots : Slots) (name : String) :
    Reader Slots := fun ts =>
  match fields.find? fun f => f.name = name with
  | none =>
    match ts with
    | .colon :: ts => match skipValue ts with
      | .ok (_, ts) => readMembers fields fuel slots false ts
      | .error e => .error e
    | _ => .error .malformed
  | some f =>
    if (slots.get fields name).isSome then .error .mismatch
    else match ts with
    | .colon :: ts => match readDatum f.shape ts with
      | .ok (d, ts) => readMembers fields fuel (slots.set fields name d) false ts
      | .error e => .error e
    | _ => .error .malformed

theorem readMembers_succ (fields : List Field) (fuel : Nat) (slots : Slots) (first : Bool)
    (ts : List Token) : readMembers fields (fuel + 1) slots first ts = match ts, first with
      | .endObject :: rest, _ => .ok (slots, rest)
      | .text (.sound name) :: ts, true => readMember fields fuel slots name ts
      | .comma :: .text (.sound name) :: ts, false => readMember fields fuel slots name ts
      | _, _ => .error .malformed := rfl

/-- What is read behind a name is a document, and either nobody asks for it, or it fills the slot of
that name. -/
theorem of_readMember {fields : List Field} {fuel : Nat} {slots slots' : Slots} {name : String}
    {ts rest : List Token} (h : readMember fields fuel slots name ts = .ok (slots', rest)) :
    ∃ (d : Document) (ts' : List Token), ts = .colon :: d.tokens ++ ts' ∧
      ((fields.find? (fun f => f.name = name) = none ∧
          readMembers fields fuel slots false ts' = .ok (slots', rest)) ∨
        ∃ f v, fields.find? (fun f => f.name = name) = some f ∧ slots.get fields name = none ∧
          f.shape.Spells d v ∧
          readMembers fields fuel (slots.set fields name v) false ts' = .ok (slots', rest)) := by
  unfold readMember at h
  split at h
  · next hname =>
    split at h
    · split at h
      · next ts' hskip =>
        -- nobody asks for the member, and its value is skipped
        obtain ⟨d, rfl⟩ := skipValue_eq_ok_iff.1 hskip
        exact ⟨d, ts', rfl, Or.inl ⟨hname, h⟩⟩
      · cases h
    · cases h
  · next f hname =>
    split at h
    · cases h
    · next hfree =>
      split at h
      · split at h
        · next v ts' hread =>
          -- a field asks for it and was still free
          obtain ⟨d, rfl, hspells⟩ := readDatum_eq_ok_iff.1 hread
          exact ⟨d, ts', rfl, Or.inr ⟨f, v, hname, by simpa using hfree, hspells, h⟩⟩
        · cases h
      · cases h

/-- What is read as the members of an object are members, and they fill the slots. -/
theorem fills_of_readMembers {fields : List Field} {fuel : Nat} {slots slots' : Slots}
    {first : Bool} {ts rest : List Token}
    (h : readMembers fields fuel slots first ts = .ok (slots', rest)) :
    ∃ members, ts = named first members ++ rest ∧ Fills fields slots members slots' := by
  induction fuel generalizing slots first ts with
  | zero => cases h
  | succ fuel ih =>
      -- behind a name it does not matter whether the member is the first
      have hmember : ∀ name ts, readMember fields fuel slots name ts = .ok (slots', rest) →
          ∃ d members, ts = .colon :: d.tokens ++ namedAfter members ++ rest ∧
            Fills fields slots ((name, d) :: members) slots' := by
        intro name ts h
        obtain ⟨d, ts', rfl, ⟨hname, hread⟩ | ⟨f, v, hname, hfree, hspells, hread⟩⟩ :=
          of_readMember h
        · obtain ⟨members, rfl, hfills⟩ := ih hread
          rw [named_false]
          exact ⟨d, members, by simp, .unknown hname hfills⟩
        · obtain ⟨members, rfl, hfills⟩ := ih hread
          rw [named_false]
          exact ⟨d, members, by simp, .known hname hfree hspells hfills⟩
      rw [readMembers_succ] at h
      split at h
      · cases h
        exact ⟨[], rfl, .done _⟩
      · next name ts =>
        obtain ⟨d, members, rfl, hfills⟩ := hmember name ts h
        exact ⟨(name, d) :: members, rfl, hfills⟩
      · next name ts =>
        obtain ⟨d, members, rfl, hfills⟩ := hmember name ts h
        exact ⟨(name, d) :: members, rfl, hfills⟩
      · cases h

theorem readMembers_named {fields : List Field} {fuel : Nat} {slots : Slots} {name : String}
    {d : Document} {members : List (String × Document)} {rest : List Token} (first : Bool) :
    readMembers fields (fuel + 1) slots first (named first ((name, d) :: members) ++ rest) =
      readMember fields fuel slots name
        (.colon :: (d.tokens ++ (named false members ++ rest))) := by
  rw [named_false, ← List.append_assoc]
  cases first with
  | false => rfl
  | true => rfl

/-- Members that fill the slots are read, each for one unit of fuel. -/
theorem readMembers_of_fills {fields : List Field} {fuel : Nat} {slots slots' : Slots}
    {members : List (String × Document)} (first : Bool) (rest : List Token)
    (hfills : Fills fields slots members slots') (hfuel : members.length < fuel) :
    readMembers fields fuel slots first (named first members ++ rest) = .ok (slots', rest) := by
  induction hfills generalizing fuel first with
  | done slots =>
      obtain ⟨fuel, rfl⟩ := Nat.exists_eq_add_one_of_ne_zero (Nat.ne_zero_of_lt hfuel)
      rfl
  | @unknown slots slots' name d members hname _ ih =>
      obtain ⟨fuel, rfl⟩ := Nat.exists_eq_add_one_of_ne_zero (Nat.ne_zero_of_lt hfuel)
      have hskip : skipValue (d.tokens ++ (named false members ++ rest)) =
          .ok ((), named false members ++ rest) := skipValue_eq_ok_iff.2 ⟨d, rfl⟩
      rw [readMembers_named, readMember, hname]
      simp only [hskip]
      exact ih false (Nat.lt_of_succ_lt_succ hfuel)
  | @known slots slots' name d v f members hname hfree hspells _ ih =>
      obtain ⟨fuel, rfl⟩ := Nat.exists_eq_add_one_of_ne_zero (Nat.ne_zero_of_lt hfuel)
      have hdatum : readDatum f.shape (d.tokens ++ (named false members ++ rest)) =
          .ok (v, named false members ++ rest) := readDatum_eq_ok_iff.2 ⟨d, rfl, hspells⟩
      rw [readMembers_named, readMember, hname, hfree]
      simp only [hdatum]
      exact ih false (Nat.lt_of_succ_lt_succ hfuel)

/-! ## Fields by name -/

/-- Whether some members spell the value of a field: one member alone has its name, or none has. -/
def Field.SpelledBy (f : Field) (members : List (String × Document)) : Option Datum → Prop
  | some v => ∃ d, members.filter (·.1 = f.name) = [(f.name, d)] ∧ f.shape.Spells d v
  | none => members.filter (·.1 = f.name) = []

/-- Whether some members fill the slot of a field: one that is free with what they spell, and one
that is filled with nothing. -/
def Field.FilledBy (f : Field) (members : List (String × Document)) :
    Option Datum → Option Datum → Prop
  | none, new => f.SpelledBy members new
  | some v, new => members.filter (·.1 = f.name) = [] ∧ new = some v

section

variable {fields : List Field} {slots slots' : Slots} {members : List (String × Document)}

theorem Field.filledBy_cons_of_ne {f : Field} {name : String} (hne : f.name ≠ name) (d : Document)
    {old new : Option Datum} :
    f.FilledBy ((name, d) :: members) old new ↔ f.FilledBy members old new := by
  have hfilter : ((name, d) :: members).filter (fun m => decide (m.1 = f.name)) =
      members.filter fun m => m.1 = f.name :=
    List.filter_cons_of_neg (by simpa using Ne.symm hne)
  cases old with
  | none =>
      cases new with
      | none => rw [FilledBy, FilledBy, SpelledBy, SpelledBy, hfilter]
      | some v => rw [FilledBy, FilledBy, SpelledBy, SpelledBy, hfilter]
  | some v => rw [FilledBy, FilledBy, hfilter]

theorem filter_cons_self (name : String) (d : Document) (members : List (String × Document)) :
    ((name, d) :: members).filter (fun m => decide (m.1 = name)) =
      (name, d) :: members.filter fun m => m.1 = name :=
  List.filter_cons_of_pos (by simp)

/-- Without members a slot stays as it is. -/
theorem Field.filledBy_nil_iff {f : Field} {old new : Option Datum} :
    f.FilledBy [] old new ↔ old = new := by
  cases old with
  | none =>
      cases new with
      | none => exact iff_of_true rfl rfl
      | some v => exact iff_of_false (fun ⟨_, hd, _⟩ => nomatch hd) nofun
  | some v => exact ⟨fun h => h.2.symm, fun h => ⟨rfl, h.symm⟩⟩

/-- A member of the field's name fills a slot that is free, and nothing fills it again. -/
theorem Field.filledBy_cons_self {f : Field} {d : Document} {old new : Option Datum} :
    f.FilledBy ((f.name, d) :: members) old new ↔
      old = none ∧ ∃ v, f.shape.Spells d v ∧ f.FilledBy members (some v) new := by
  have hfilter := filter_cons_self f.name d members
  cases old with
  | some v =>
      refine iff_of_false (fun h => ?_) nofun
      exact List.cons_ne_nil _ _ (hfilter.symm.trans h.1)
  | none =>
      cases new with
      | none =>
          refine iff_of_false (fun h => ?_) fun ⟨_, _, _, h⟩ => nomatch h.2
          exact List.cons_ne_nil _ _ (hfilter.symm.trans h)
      | some v =>
          constructor
          · rintro ⟨d', hd, hspells⟩
            obtain ⟨hhead, hnone⟩ := List.cons.inj (hfilter.symm.trans hd)
            cases hhead
            exact ⟨rfl, v, hspells, hnone, rfl⟩
          · rintro ⟨-, _, hspells, hnone, ⟨⟩⟩
            exact ⟨d, by rw [hfilter, hnone], hspells⟩

theorem find?_eq_none_iff {name : String} :
    fields.find? (fun f => f.name = name) = none ↔ ∀ f ∈ fields, f.name ≠ name := by
  simp

/-- Among fields of different names the one that is found by a name is the only one. -/
theorem find?_eq_some_iff (hnodup : (fields.map Field.name).Nodup) {name : String} {f : Field} :
    fields.find? (fun f => f.name = name) = some f ↔ f ∈ fields ∧ f.name = name := by
  constructor
  · intro h
    exact ⟨List.mem_of_find?_eq_some h, by simpa using List.find?_some h⟩
  · rintro ⟨hf, rfl⟩
    cases hfind : fields.find? fun g => g.name = f.name with
    | none => exact absurd rfl (find?_eq_none_iff.1 hfind f hf)
    | some g =>
        have hg : g ∈ fields := List.mem_of_find?_eq_some hfind
        have hname : g.name = f.name := by simpa using List.find?_some hfind
        rw [List.inj_on_of_nodup_map hnodup hg hf hname]

/-- **By name.**  What members fill one after the other they spell by name. -/
theorem filledBy_of_fills (hnodup : (fields.map Field.name).Nodup)
    (hlength : slots.length = fields.length) (h : Fills fields slots members slots') :
    slots'.length = fields.length ∧
      ∀ f ∈ fields, f.FilledBy members (slots.get fields f.name) (slots'.get fields f.name) := by
  induction h with
  | done slots => exact ⟨hlength, fun f _ => Field.filledBy_nil_iff.2 rfl⟩
  | unknown hname _ ih =>
      obtain ⟨hlength', hfilled⟩ := ih hlength
      refine ⟨hlength', fun f hf => ?_⟩
      rw [Field.filledBy_cons_of_ne (find?_eq_none_iff.1 hname f hf)]
      exact hfilled f hf
  | @known slots slots' name d v g members hname hfree hspells _ ih =>
      -- the slot of this member was free and is filled now, and every other one is as it was
      obtain ⟨hg, rfl⟩ := (find?_eq_some_iff hnodup).1 hname
      obtain ⟨hlength', hfilled⟩ := ih (Slots.length_set hlength g.name v)
      refine ⟨hlength', fun f hf => ?_⟩
      have hnext := hfilled f hf
      rw [Slots.get_set hlength hf] at hnext
      by_cases hne : f.name = g.name
      · obtain rfl := List.inj_on_of_nodup_map hnodup hf hg hne
        rw [if_pos rfl] at hnext
        exact Field.filledBy_cons_self.2 ⟨hfree, v, hspells, hnext⟩
      · rw [if_neg hne] at hnext
        exact (Field.filledBy_cons_of_ne hne d).2 hnext

/-- **In a row.**  What members spell by name they fill one after the other. -/
theorem fills_of_filledBy (hnodup : (fields.map Field.name).Nodup)
    (hlength : slots.length = fields.length) (hlength' : slots'.length = fields.length)
    (h : ∀ f ∈ fields, f.FilledBy members (slots.get fields f.name) (slots'.get fields f.name)) :
    Fills fields slots members slots' := by
  induction members generalizing slots with
  | nil =>
      obtain rfl : slots = slots' := Slots.ext hnodup hlength hlength' fun f hf =>
        Field.filledBy_nil_iff.1 (h f hf)
      exact .done slots
  | cons m members ih =>
      obtain ⟨name, d⟩ := m
      cases hname : fields.find? fun f => f.name = name with
      | none =>
          refine .unknown hname (ih hlength fun f hf => ?_)
          exact (Field.filledBy_cons_of_ne (find?_eq_none_iff.1 hname f hf) d).1 (h f hf)
      | some g =>
          obtain ⟨hg, rfl⟩ := (find?_eq_some_iff hnodup).1 hname
          obtain ⟨hfree, v, hspells, hnext⟩ := Field.filledBy_cons_self.1 (h g hg)
          refine .known hname hfree hspells (ih (Slots.length_set hlength _ v) fun f hf => ?_)
          rw [Slots.get_set hlength hf]
          -- of two fields with one name there is only one, so no other is filled by this member
          by_cases hne : f.name = g.name
          · obtain rfl := List.inj_on_of_nodup_map hnodup hf hg hne
            rw [if_pos rfl]
            exact hnext
          · rw [if_neg hne]
            exact (Field.filledBy_cons_of_ne hne d).1 (h f hf)

/-- The slots of an object are full if each that must be there is. -/
theorem complete_eq_ok_iff (hnodup : (fields.map Field.name).Nodup)
    (hlength : slots.length = fields.length) : complete fields slots = .ok slots' ↔
      slots' = slots ∧ ∀ f ∈ fields, f.missing = .fault → slots.get fields f.name ≠ none := by
  -- slots are paired with the fields by their places, and places and names agree since the names
  -- are distinct
  have hany : (fields.zip slots).any (fun e => e.1.missing = .fault && e.2.isNone) = true ↔
      ∃ f ∈ fields, f.missing = .fault ∧ slots.get fields f.name = none := by
    induction fields generalizing slots with
    | nil => simp
    | cons g fields ih =>
        obtain ⟨slot, slots, rfl⟩ := List.exists_cons_of_length_eq_add_one hlength
        rw [List.map_cons, List.nodup_cons] at hnodup
        have htail : ∀ f ∈ fields, Slots.get (g :: fields) (slot :: slots) f.name =
            Slots.get fields slots f.name := by
          intro f hf
          have hne : g.name ≠ f.name := fun heq => hnodup.1 (heq ▸ List.mem_map_of_mem hf)
          rw [Slots.get_cons, if_neg hne]
        rw [List.zip_cons_cons, List.any_cons, Bool.or_eq_true, ih hnodup.2 (Nat.succ.inj hlength),
          List.exists_mem_cons_iff, Slots.get_cons, if_pos rfl]
        refine or_congr (by simp) (exists_congr fun f => and_congr_right fun hf => ?_)
        rw [htail f hf]
  unfold complete
  by_cases hmissing : ∃ f ∈ fields, f.missing = .fault ∧ slots.get fields f.name = none
  · rw [if_pos (hany.2 hmissing)]
    obtain ⟨f, hf, hfault, hnone⟩ := hmissing
    exact iff_of_false nofun fun h => h.2 f hf hfault hnone
  · rw [if_neg (mt hany.1 hmissing)]
    constructor
    · intro h
      cases h
      exact ⟨rfl, fun f hf hfault hnone => hmissing ⟨f, hf, hfault, hnone⟩⟩
    · rintro ⟨rfl, -⟩
      rfl

end

/-! ## Items of an array -/

/-- The tokens of documents at the beginning of their array or behind another one. -/
def listed (first : Bool) : List Document → List Token
  | [] => [.endArray]
  | d :: rest =>
    if first then d.tokens ++ itemsAfter rest else .comma :: d.tokens ++ itemsAfter rest

theorem listed_false (items : List Document) : listed false items = itemsAfter items := by
  cases items with | nil | cons => rfl

theorem tokens_eq_listed (items : List Document) :
    (Document.array items).tokens = .beginArray :: listed true items := by
  cases items with | nil | cons => rfl

/-- Whether documents spell the values of fields in their order, where the last ones that have a
default may be left out. -/
inductive Elements : List Field → List Document → Slots → Prop where
  | done : Elements [] [] []
  | missing {f : Field} {fields : List Field} {slots : Slots} (hdefault : f.missing = .default)
    (h : Elements fields [] slots) : Elements (f :: fields) [] (none :: slots)
  | item {f : Field} {fields : List Field} {d : Document} {items : List Document} {v : Datum}
    {slots : Slots} (hvalue : f.shape.Spells d v) (h : Elements fields items slots) :
    Elements (f :: fields) (d :: items) (some v :: slots)

/-- Reads an item, and the items after it. -/
def readElement (acc : Slots) (f : Field) (fields : List Field) : Reader Slots := fun ts =>
  match readDatum f.shape ts with
  | .ok (d, ts) => readElements (some d :: acc) false fields ts
  | .error e => .error e

theorem readElements_cons (acc : Slots) (first : Bool) (f : Field) (fields : List Field)
    (ts : List Token) : readElements acc first (f :: fields) ts = match ts with
      | .endArray :: _ =>
        if f.missing = .default then readElements (none :: acc) first fields ts
        else .error .mismatch
      | .comma :: ts =>
        if first then .error .malformed
        else match ts with
          | .endArray :: _ => .error .malformed
          | ts => readElement acc f fields ts
      | ts => if first then readElement acc f fields ts else .error .malformed := rfl

theorem ne_listed_cons (first : Bool) (d : Document) (items : List Document)
    {ts rest : List Token} : .endArray :: ts ≠ listed first (d :: items) ++ rest := by
  obtain ⟨t, ts', hts, hend, -⟩ := exists_first d
  intro h
  cases first with
  | false => cases h
  | true =>
      rw [listed, if_pos rfl, hts] at h
      exact hend (List.cons.inj h).1.symm

theorem readElements_listed (acc : Slots) (first : Bool) (f : Field) (fields : List Field)
    (d : Document) (items : List Document) (rest : List Token) :
    readElements acc first (f :: fields) (listed first (d :: items) ++ rest) =
      readElement acc f fields (d.tokens ++ (listed false items ++ rest)) := by
  obtain ⟨t, ts, hts, hend, hcomma⟩ := exists_first d
  rw [listed_false, readElements_cons]
  cases first with
  | false =>
      rw [listed, if_neg Bool.false_ne_true, List.cons_append, List.cons_append, List.append_assoc,
        hts, List.cons_append]
      dsimp only
      rw [if_neg Bool.false_ne_true]
      split
      · next h => exact absurd (List.cons.inj h).1 hend
      · rfl
  | true =>
      rw [listed, if_pos rfl, List.append_assoc, hts, List.cons_append]
      split
      · next h => exact absurd (List.cons.inj h).1 hend
      · next h => exact absurd (List.cons.inj h).1 hcomma
      · exact if_pos rfl

/-- What is read as the items of an array are items, and they spell the fields in their order. -/
theorem elements_of_read {acc slots' : Slots} {first : Bool} {fields : List Field}
    {ts rest : List Token} (h : readElements acc first fields ts = .ok (slots', rest)) :
    ∃ items slots, ts = listed first items ++ rest ∧ slots' = acc.reverse ++ slots ∧
      Elements fields items slots := by
  induction fields generalizing acc first ts with
  | nil =>
      unfold readElements at h
      split at h
      · cases h
        exact ⟨[], [], rfl, (List.append_nil _).symm, .done⟩
      · cases h
  | cons f fields ih =>
      have helement : ∀ ts, readElement acc f fields ts = .ok (slots', rest) →
          ∃ d items slots, ts = d.tokens ++ itemsAfter items ++ rest ∧
            slots' = acc.reverse ++ slots ∧ Elements (f :: fields) (d :: items) slots := by
        intro ts h
        unfold readElement at h
        split at h
        · next v ts hread =>
          obtain ⟨d, rfl, hspells⟩ := readDatum_eq_ok_iff.1 hread
          obtain ⟨items, slots, rfl, rfl, helements⟩ := ih h
          rw [listed_false]
          refine ⟨d, items, some v :: slots, by simp, by simp, .item hspells helements⟩
        · cases h
      rw [readElements_cons] at h
      split at h
      -- where the items end, the fields that are left take their defaults
      · next ts =>
        obtain ⟨hdefault, h⟩ := of_ite_ok h
        obtain ⟨items, slots, hts, rfl, helements⟩ := ih h
        cases items with
        | nil =>
            cases hts
            exact ⟨[], none :: slots, rfl, by simp, .missing hdefault helements⟩
        | cons d items => exact absurd hts (ne_listed_cons first d items)
      · next ts =>
        split at h
        · cases h
        · next hfirst =>
          obtain rfl : first = false := by simpa using hfirst
          split at h
          · cases h
          · obtain ⟨d, items, slots, rfl, rfl, helements⟩ := helement _ h
            exact ⟨d :: items, slots, rfl, rfl, helements⟩
      · obtain ⟨rfl, h⟩ := of_ite_ok h
        obtain ⟨d, items, slots, rfl, rfl, helements⟩ := helement _ h
        exact ⟨d :: items, slots, rfl, rfl, helements⟩

/-- Items that spell the fields in their order are read. -/
theorem readElements_of_elements {fields : List Field} {items : List Document} {slots : Slots}
    (h : Elements fields items slots) (acc : Slots) (first : Bool) (rest : List Token) :
    readElements acc first fields (listed first items ++ rest) =
      .ok (acc.reverse ++ slots, rest) := by
  induction h generalizing acc first with
  | done =>
      rw [List.append_nil]
      rfl
  -- the items have ended, and each field that is left has a default
  | @missing f fields slots hdefault _ ih =>
      have hnext := ih (none :: acc) first
      rw [List.reverse_cons, List.append_assoc] at hnext
      rw [readElements_cons]
      exact (if_pos hdefault).trans hnext
  | @item f fields d items v slots hspells _ ih =>
      have hdatum : readDatum f.shape (d.tokens ++ (listed false items ++ rest)) =
          .ok (v, listed false items ++ rest) := readDatum_eq_ok_iff.2 ⟨d, rfl, hspells⟩
      have helement : readElement acc f fields (d.tokens ++ (listed false items ++ rest)) =
          .ok (acc.reverse ++ some v :: slots, rest) := by
        have hnext := ih (some v :: acc) false
        rw [List.reverse_cons, List.append_assoc] at hnext
        unfold readElement
        rw [hdatum]
        exact hnext
      rw [readElements_listed]
      exact helement

/-! ## Records -/

/-- Whether a document is a record whose fields have the values in some slots: an object that
spells each field by its name and leaves out none that must be there, or an array that spells them
in their order. -/
inductive IsRecord (fields : List Field) : Document → Slots → Prop where
  | object {members : List (String × Document)} {slots : Slots}
    (hlength : slots.length = fields.length)
    (hspelled : ∀ f ∈ fields, f.SpelledBy members (slots.get fields f.name))
    (hfull : ∀ f ∈ fields, f.missing = .fault → slots.get fields f.name ≠ none) :
    IsRecord fields (.ofMembers members) slots
  | array {items : List Document} {slots : Slots} (h : Elements fields items slots) :
    IsRecord fields (.array items) slots

/-- A slot that is filled belongs to a field. -/
theorem Slots.exists_field_of_get {fields : List Field} {slots : Slots} {name : String} {v : Datum}
    (h : slots.get fields name = some v) : ∃ f ∈ fields, f.name = name := by
  obtain ⟨e, hfind, -⟩ := Option.bind_eq_some_iff.1 h
  have hname : e.1.name = name := by simpa using List.find?_some hfind
  exact ⟨e.1, (List.of_mem_zip (List.mem_of_find?_eq_some hfind)).1, hname⟩

theorem Elements.exists_spells {fields : List Field} {items : List Document} {slots : Slots}
    (h : Elements fields items slots) {name : String} {v : Datum}
    (hget : slots.get fields name = some v) :
    ∃ f ∈ fields, f.name = name ∧ ∃ d, f.shape.Spells d v := by
  induction h with
  | done => cases hget
  | @missing f fields slots hdefault _ ih =>
      rw [Slots.get_cons] at hget
      split at hget
      · cases hget
      · obtain ⟨g, hg, hspelled⟩ := ih hget
        exact ⟨g, List.mem_cons_of_mem f hg, hspelled⟩
  | @item f fields d items w slots hvalue _ ih =>
      rw [Slots.get_cons] at hget
      split at hget
      · next hname =>
        cases hget
        exact ⟨f, List.mem_cons_self, hname, d, hvalue⟩
      · obtain ⟨g, hg, hspelled⟩ := ih hget
        exact ⟨g, List.mem_cons_of_mem f hg, hspelled⟩

/-- Every value in a record is spelled by a document, as the shape of its field has it. -/
theorem IsRecord.exists_spells {fields : List Field} {d : Document} {slots : Slots}
    (h : IsRecord fields d slots) {name : String} {v : Datum}
    (hget : slots.get fields name = some v) :
    ∃ f ∈ fields, f.name = name ∧ ∃ e, f.shape.Spells e v := by
  cases h with
  | object hlength hspelled hfull =>
      obtain ⟨f, hf, rfl⟩ := Slots.exists_field_of_get hget
      have hvalue := hspelled f hf
      rw [hget] at hvalue
      obtain ⟨e, -, hspells⟩ := hvalue
      exact ⟨f, hf, rfl, e, hspells⟩
  | array helements => exact helements.exists_spells hget

theorem ofMembers_inj {members members' : List (String × Document)}
    (h : Document.ofMembers members = .ofMembers members') : members = members' := by
  have hmap := Document.object.inj h
  refine List.map_injective_iff.2 ?_ hmap
  intro m m' hm
  obtain ⟨hname, hvalue⟩ := Prod.mk.inj hm
  exact Prod.ext (Quoted.sound.inj hname) hvalue

/-- What it takes for an object to be a record. -/
theorem isRecord_ofMembers_iff {fields : List Field} {members : List (String × Document)}
    {slots : Slots} : IsRecord fields (.ofMembers members) slots ↔ slots.length = fields.length ∧
      (∀ f ∈ fields, f.SpelledBy members (slots.get fields f.name)) ∧
        ∀ f ∈ fields, f.missing = .fault → slots.get fields f.name ≠ none := by
  constructor
  · generalize hd : Document.ofMembers members = d
    intro h
    cases h with
    | object hlength hspelled hfull =>
        rw [ofMembers_inj hd]
        exact ⟨hlength, hspelled, hfull⟩
    | array => cases hd
  · rintro ⟨hlength, hspelled, hfull⟩
    exact .object hlength hspelled hfull

/-- Each member has at least one token, so their tokens are fuel enough. -/
theorem length_le_named (first : Bool) (members : List (String × Document)) :
    members.length ≤ (named first members).length := by
  -- each member has a name, a colon and a value, which is more than one token
  have hafter : ∀ members : List (String × Document),
      members.length ≤ (namedAfter members).length := by
    intro members
    induction members with
    | nil => exact Nat.zero_le _
    | cons m members ih =>
        show members.length + 1 ≤ ((.comma :: .text (.sound m.1) :: .colon :: m.2.tokens) ++
          namedAfter members : List Token).length
        rw [List.length_append, List.length_cons]
        omega
  cases members with
  | nil => exact Nat.zero_le _
  | cons m members =>
      have hrest := hafter members
      cases first with
      | false => exact hafter (m :: members)
      | true =>
          show members.length + 1 ≤ ((.text (.sound m.1) :: .colon :: m.2.tokens) ++
            namedAfter members : List Token).length
          rw [List.length_append, List.length_cons]
          omega

/-- **Records.**  A record of fields with different names is read from the tokens of the documents
that are one, and what follows them is left. -/
theorem readRecord_eq_ok_iff {fields : List Field} (hnodup : (fields.map Field.name).Nodup)
    {ts rest : List Token} {slots : Slots} :
    readRecord fields ts = .ok (slots, rest) ↔
      ∃ d : Document, ts = d.tokens ++ rest ∧ IsRecord fields d slots := by
  have hempty : (fields.map fun _ => (none : Option Datum)).length = fields.length :=
    List.length_map _
  constructor
  · intro h
    unfold readRecord at h
    split at h
    · next ts =>
      obtain ⟨⟨filled, ts'⟩, hread, h⟩ := of_bind_eq_ok h
      obtain ⟨full, hcomplete, h⟩ := of_bind_eq_ok h
      cases h
      obtain ⟨members, rfl, hfills⟩ := fills_of_readMembers hread
      obtain ⟨hlength, hfilled⟩ := filledBy_of_fills hnodup hempty hfills
      obtain ⟨rfl, hfull⟩ := (complete_eq_ok_iff hnodup hlength).1 hcomplete
      -- no slot was filled before the first member, so what fills it is what the members spell
      refine ⟨.ofMembers members, by rw [tokens_eq_named]; rfl, .object hlength ?_ hfull⟩
      intro f hf
      have hslot := hfilled f hf
      rwa [Slots.get_none] at hslot
    · next ts =>
      obtain ⟨items, slots, rfl, rfl, helements⟩ := elements_of_read h
      exact ⟨.array items, by rw [tokens_eq_listed]; rfl, .array helements⟩
    · cases h
  · rintro ⟨d, rfl, hrecord⟩
    cases hrecord with
    | @object members slots hlength hspelled hfull =>
        have hfills : Fills fields (fields.map fun _ => none) members slots := by
          refine fills_of_filledBy hnodup hempty hlength fun f hf => ?_
          rw [Slots.get_none]
          exact hspelled f hf
        have hfuel : members.length < (named true members ++ rest).length + 1 := by
          have hle := length_le_named true members
          rw [List.length_append]
          omega
        have hread := readMembers_of_fills true rest hfills hfuel
        have hcomplete := (complete_eq_ok_iff hnodup hlength).2 ⟨rfl, hfull⟩
        rw [tokens_eq_named, List.cons_append, readRecord, hread]
        show (complete fields slots >>= fun full => pure (full, rest)) = _
        rw [hcomplete]
        rfl
    | @array items slots helements =>
        rw [tokens_eq_listed]
        exact readElements_of_elements helements [] true rest

end Gatehouse.Json
