import Gatehouse.Proofs.Json.Record
import Gatehouse.Proofs.Token.Nesting

/-!
# Gatehouse.Proofs.Token.Key — the keys that a header may hold

A header may hold the key that its token is signed with.  Nobody uses that key, but a header that
holds something else in its place is no header, so what counts as a key decides which tokens are
accepted.

`IsKey` says it of documents.  Four things are asked, each by a reader of its own that goes over the
whole object: the brackets nest no deeper than any value may, every word can be read, the members
that all keys share have their types, and so have those of one kind of key.  A member that one of
the readers does not know is skipped by it, which is why the four do not get in each other's way and
`isKey_tokens_iff` takes them one by one.
-/

namespace Gatehouse.KeyedSigner

open Gatehouse.Json

/-- Whether a document is a key.  Its algorithm is one of the names, or an object with one of the
names that holds an empty object. -/
structure IsKey (d : Document) : Prop where
  depth : d.depth ≤ maxNesting
  legible : ∀ t ∈ d.tokens, t.stop? = none
  common : (∃ slots, IsRecord (commonKeyFields (.choice keyAlgorithms)) d slots) ∨
    ∃ slots, IsRecord (commonKeyFields .object) d slots ∧ ∃ name ∈ keyAlgorithms,
      slots.get (commonKeyFields .object) "alg" =
        some (.object (Document.object [(.sound name, .object [])]).tokens)
  kind : ∃ fields ∈ keyKinds, ∃ slots, IsRecord fields d slots

/-- The fields that all keys share have different names, whatever an algorithm may look like. -/
theorem commonKeyFields_nodup (algorithm : Shape) :
    ((commonKeyFields algorithm).map Field.name).Nodup := by
  have hnames : (commonKeyFields algorithm).map Field.name =
      ["use", "key_ops", "alg", "kid", "x5u", "x5c", "x5t", "x5t#S256"] := rfl
  rw [hnames]
  decide

/-- So have the fields of each kind of key. -/
theorem keyKinds_nodup : ∀ fields ∈ keyKinds, (fields.map Field.name).Nodup := by decide

/-- The tokens of a document are a record alone exactly if it is one. -/
theorem slots?_eq_some_iff {fields : List Field} (hnodup : (fields.map Field.name).Nodup)
    {d : Document} {slots : Slots} : slots? fields d.tokens = some slots ↔
      IsRecord fields d slots := by
  have hread : readRecord fields d.tokens = .ok (slots, []) ↔ IsRecord fields d slots := by
    rw [readRecord_eq_ok_iff hnodup]
    constructor
    · rintro ⟨e, he, hrecord⟩
      rw [List.append_nil] at he
      rw [Document.tokens_inj he]
      exact hrecord
    · exact fun hrecord => ⟨d, (List.append_nil _).symm, hrecord⟩
  rw [← hread]
  unfold slots?
  constructor
  · intro h
    split at h
    · next slots' hslots =>
      cases h
      exact hslots
    · cases h
  · intro h
    rw [h]

/-- There are slots exactly if the document is a record. -/
theorem isSome_slots?_iff {fields : List Field} (hnodup : (fields.map Field.name).Nodup)
    (d : Document) : (slots? fields d.tokens).isSome = true ↔ ∃ slots, IsRecord fields d slots := by
  rw [Option.isSome_iff_exists]
  exact exists_congr fun slots => slots?_eq_some_iff hnodup

/-- The fields that all keys share are those of a record, whose algorithm is a name or an object
that holds one. -/
theorem hasCommonFields_tokens_iff (d : Document) : hasCommonFields d.tokens = true ↔
    (∃ slots, IsRecord (commonKeyFields (.choice keyAlgorithms)) d slots) ∨
      ∃ slots, IsRecord (commonKeyFields .object) d slots ∧ ∃ name ∈ keyAlgorithms,
        slots.get (commonKeyFields .object) "alg" =
          some (.object (Document.object [(.sound name, .object [])]).tokens) := by
  unfold hasCommonFields
  rw [Bool.or_eq_true, isSome_slots?_iff (commonKeyFields_nodup _), Option.any_eq_true]
  refine or_congr_right (exists_congr fun slots => ?_)
  rw [slots?_eq_some_iff (commonKeyFields_nodup _), List.any_eq_true]
  exact and_congr_right fun _ => exists_congr fun name =>
    and_congr_right fun _ => decide_eq_true_iff

/-- **Keys.**  The tokens of a document are taken for a key exactly if it is one. -/
theorem isKey_tokens_iff (d : Document) : isKey d.tokens = true ↔ IsKey d := by
  have hlegible : d.tokens.all (·.stop?.isNone) = true ↔ ∀ t ∈ d.tokens, t.stop? = none := by
    rw [List.all_eq_true]
    exact forall₂_congr fun t _ => Option.isNone_iff_eq_none
  have hkind : keyKinds.any (fun fields => (slots? fields d.tokens).isSome) = true ↔
      ∃ fields ∈ keyKinds, ∃ slots, IsRecord fields d slots := by
    rw [List.any_eq_true]
    exact exists_congr fun fields => and_congr_right fun hfields =>
      isSome_slots?_iff (keyKinds_nodup fields hfields) d
  unfold isKey
  rw [Bool.and_eq_true, Bool.and_eq_true, Bool.and_eq_true, decide_eq_true_iff, nesting_eq_depth,
    hlegible, hasCommonFields_tokens_iff, hkind]
  exact ⟨fun ⟨⟨⟨hdepth, hwords⟩, hcommon⟩, hkind⟩ => ⟨hdepth, hwords, hcommon, hkind⟩,
    fun h => ⟨⟨⟨h.depth, h.legible⟩, h.common⟩, h.kind⟩⟩

/-- A key of a kind that has bytes, with its algorithm written as a member. -/
example : IsKey (.object [(.sound "kty", .text (.sound "oct")), (.sound "k", .text (.sound "AQ")),
    (.sound "alg", .object [(.sound "HS256", .object [])])]) :=
  (isKey_tokens_iff _).1 (by decide +kernel)

end Gatehouse.KeyedSigner
