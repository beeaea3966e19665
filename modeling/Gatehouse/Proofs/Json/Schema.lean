import Gatehouse.Json.Schema
import Gatehouse.Proofs.Json.Lexer
import Gatehouse.Proofs.Json.Record

/-!
# Gatehouse.Proofs.Json.Schema — reading values of a type

A text is an object of some members if its tokens are those of that object (`IsObject`).  A schema
reads it by the members under the names of its fields alone, in whatever order they stand:
`Schema.readsByName`.

A schema is a list of fields, each with a name, a shape and what to do if there is no member of that
name.  What is read of an object is one slot for each field; from the slots the value is built, and
building cannot fail.  So a value is read exactly if the members spell out the slots
(`ofText_eq_ok_iff`), and for a given object the members of one name decide one slot.

That gives both results of this module their form.  Members of other names belong to no slot, and
the order of members decides at most which of several with one name comes first, so nothing changes
if members of different names change places.  And a text that was written from a value is read back
if its members spell the slots one by one, which is a list of small facts about fields
(`isRecord_of_forall₂`) and is proved for each type where the type is.
-/

namespace Gatehouse.Json

/-! ## Objects -/

theorem Value.namedDocuments_eq_map (members : List (String × Value)) :
    Value.namedDocuments members = members.map fun m => (.sound m.1, m.2.document) := by
  induction members with
  | nil => rfl
  | cons m members ih => rw [Value.namedDocuments, ih, List.map_cons]

/-- What a reader finds of a written member. -/
def asFound (m : String × Value) : String × Document := (m.1, m.2.document)

theorem Value.document_object (members : List (String × Value)) :
    (Value.object members).document = .ofMembers (members.map asFound) := by
  rw [Value.document, Value.namedDocuments_eq_map, Document.ofMembers, List.map_map]
  rfl

/-- Whether a text is an object of some members. -/
def IsObject (text : String) (members : List (String × Document)) : Prop :=
  tokensOf text = (Document.ofMembers members).tokens

/-- What is written of an object is an object of its members. -/
theorem isObject_render (members : List (String × Value)) :
    IsObject (Value.object members).render (members.map asFound) := by
  rw [IsObject, tokensOf_render, Value.document_object]

/-! ## Members that are asked for -/

/-- The members under some names. -/
def under (names : List String) (members : List (String × Document)) : List (String × Document) :=
  members.filter fun m => m.1 ∈ names

section

variable {fields : List Field} {names : List String} {members members' : List (String × Document)}

/-- The members of one name are the same among all members and among those under names that include
it. -/
theorem filter_under {name : String} (hname : name ∈ names) (members : List (String × Document)) :
    (under names members).filter (·.1 = name) = members.filter (·.1 = name) := by
  rw [under, List.filter_filter]
  refine List.filter_congr fun m _ => ?_
  by_cases hm : m.1 = name
  · have hmem : m.1 ∈ names := hm ▸ hname
    rw [decide_eq_true hm, decide_eq_true hmem]
    rfl
  · rw [decide_eq_false hm]
    rfl

/-- What members spell of a field does not depend on their order, or on members of other names. -/
theorem Field.spelledBy_congr (h : (under names members).Perm (under names members')) {f : Field}
    (hf : f.name ∈ names) {slot : Option Datum} :
    f.SpelledBy members slot ↔ f.SpelledBy members' slot := by
  have hperm := h.filter (·.1 = f.name)
  rw [filter_under hf, filter_under hf] at hperm
  unfold Field.SpelledBy
  cases slot with
  | none => exact ⟨fun hnil => (hnil ▸ hperm).nil_eq.symm, fun hnil => (hnil ▸ hperm).eq_nil⟩
  | some v =>
      refine exists_congr fun d => and_congr_left fun _ => ?_
      exact ⟨fun hone => List.perm_singleton.1 (hone ▸ hperm.symm),
        fun hone => List.perm_singleton.1 (hone ▸ hperm)⟩

/-- Objects with the same members under the names of the fields are records of the same slots. -/
theorem isRecord_congr (hnames : fields.map Field.name = names)
    (h : (under names members).Perm (under names members')) {slots : Slots} :
    IsRecord fields (.ofMembers members) slots ↔ IsRecord fields (.ofMembers members') slots := by
  have hspelled : ∀ f ∈ fields, ∀ slot, f.SpelledBy members slot ↔ f.SpelledBy members' slot :=
    fun f hf slot => Field.spelledBy_congr h (hnames ▸ List.mem_map_of_mem hf)
  rw [isRecord_ofMembers_iff, isRecord_ofMembers_iff]
  exact and_congr_right' (and_congr_left' (forall₂_congr fun f hf => hspelled f hf _))

/-- Whether members spell a slot of a field, which is filled if it must be. -/
def Field.Takes (f : Field) (members : List (String × Document)) (slot : Option Datum) : Prop :=
  f.SpelledBy members slot ∧ (f.missing = .fault → slot ≠ none)

/-- A member of the field's name that spells a value fills the slot with it. -/
theorem Field.takes_of_spells {f : Field} {d : Document} {v : Datum}
    (hmember : members.filter (·.1 = f.name) = [(f.name, d)]) (h : f.shape.Spells d v) :
    f.Takes members (some v) :=
  ⟨⟨d, hmember, h⟩, fun _ => nofun⟩

/-- What holds of fields and slots one by one holds of each field and the slot that is found under
its name, since the names are distinct. -/
theorem forall_get_of_forall₂ {R : Field → Option Datum → Prop} {slots : Slots}
    (hnodup : (fields.map Field.name).Nodup) (h : List.Forall₂ R fields slots) :
    ∀ f ∈ fields, R f (slots.get fields f.name) := by
  induction h with
  | nil => exact nofun
  | @cons g slot fields slots hslot _ ih =>
      rw [List.map_cons, List.nodup_cons] at hnodup
      intro f hf
      rw [Slots.get_cons]
      rcases List.mem_cons.1 hf with rfl | hf
      · rwa [if_pos rfl]
      · have hne : g.name ≠ f.name := fun heq => hnodup.1 (heq ▸ List.mem_map_of_mem hf)
        rw [if_neg hne]
        exact ih hnodup.2 f hf

/-- Members that spell the slots of the fields one by one are a record of these slots. -/
theorem isRecord_of_forall₂ {slots : Slots} (hnodup : (fields.map Field.name).Nodup)
    (h : List.Forall₂ (Field.Takes · members) fields slots) :
    IsRecord fields (.ofMembers members) slots := by
  have hslots := forall_get_of_forall₂ hnodup h
  exact isRecord_ofMembers_iff.2 ⟨h.length_eq.symm, fun f hf => (hslots f hf).1,
    fun f hf => (hslots f hf).2⟩

end

/-! ## Schemas -/

namespace Schema

variable {α : Type} {s : Schema α} {text : String} {members : List (String × Document)}

/-- A value is read from an object if the members spell out its fields. -/
theorem ofText_eq_ok_iff (hnodup : (s.fields.map Field.name).Nodup) (htext : IsObject text members)
    {a : α} : s.ofText text = .ok a ↔
      ∃ slots, IsRecord s.fields (.ofMembers members) slots ∧ s.build (slots.get s.fields) = a := by
  unfold ofText ofTokens
  rw [htext]
  constructor
  · intro h
    obtain ⟨⟨slots, rest⟩, hread, h⟩ := of_bind_eq_ok h
    obtain ⟨d, hd, hrecord⟩ := (readRecord_eq_ok_iff hnodup).1 hread
    dsimp only at h
    split at h
    · next hrest =>
      obtain rfl := List.isEmpty_iff.1 hrest
      rw [List.append_nil] at hd
      rw [Document.tokens_inj hd]
      exact ⟨slots, hrecord, Except.ok.inj h⟩
    · cases h
  · rintro ⟨slots, hrecord, rfl⟩
    have hread : readRecord s.fields (Document.ofMembers members).tokens = .ok (slots, []) :=
      (readRecord_eq_ok_iff hnodup).2 ⟨_, (List.append_nil _).symm, hrecord⟩
    rw [hread]
    rfl

/-- Whether two objects with the same members under some names, in whatever order and among whatever
others, are read as the same value or not at all. -/
def ReadsByName (s : Schema α) (names : List String) : Prop :=
  ∀ (text text' : String) (members members' : List (String × Document)), IsObject text members →
    IsObject text' members' → (under names members).Perm (under names members') →
      ∀ a, s.ofText text = .ok a ↔ s.ofText text' = .ok a

/-- **Order and unknown names.**  An object is read by its members under the names of the fields. -/
theorem readsByName {names : List String} (hnames : s.fields.map Field.name = names)
    (hnodup : names.Nodup) : s.ReadsByName names := by
  intro text text' members members' htext htext' h a
  have hfields : (s.fields.map Field.name).Nodup := hnames ▸ hnodup
  rw [ofText_eq_ok_iff hfields htext, ofText_eq_ok_iff hfields htext']
  exact exists_congr fun slots => and_congr_left' (isRecord_congr hnames h)

end Schema

end Gatehouse.Json
