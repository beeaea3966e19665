import Gatehouse.Entity.Document
import Gatehouse.Policy.Document
import Gatehouse.Proofs.Json.Schema
import Gatehouse.Proofs.Time.Timestamp

/-!
# Gatehouse.Proofs.Entity — policies, clients and groups are read back

What is written of an entity spells out all of its fields, so its reader gives it back; and the same
reader takes the members of an object by their names, in any order and among any others.
`entities_read_back` says both of policies, clients and groups.

Each type is settled by the same two steps.  The members that are written are matched with the
fields of the schema one by one, each by the lemma for its kind of value (`isRecord_of_forall₂`);
and from the row of values that comes of it the entity is put together again.  What differs between
the types is in the fields: a group may have no parent, which is written as null, and no path, which
is not written at all; its level is a number, and instants and states are texts of their own kind.

Two conditions are left.  An instant is read back if it is plain, which means that its year has four
digits, as those of all clocks have; and a level has to fit into the word in which it is held.  Of
texts nothing is asked: whatever characters they have are escaped where they must be.
-/

namespace Gatehouse

open Gatehouse.Json Gatehouse.Time

/-! ## Values of the fields -/

/-- An instant is spelled by its written form. -/
theorem spells_instant {t : Timestamp} (h : t.Plain) :
    Shape.Spells .instant (Value.text t.render).document (.instant t) :=
  .instant h.read_render

/-- A status is spelled by its name. -/
theorem spells_status (s : Status) :
    Shape.Spells (.choice Status.names) (Value.text s.name).document (.text s.name) := by
  refine .name ?_
  cases s with | enabled | disabled | all => decide

/-- A number of 64 bits is written in full. -/
theorem spells_natural {n : Nat} (h : n < Word.bound 64) :
    Shape.Spells (.natural (Word.bound 64)) (Value.integer n).document (.natural n) := by
  have hwhole : Numeral.ofInteger (n : Int) = .whole n :=
    Numeral.ofInteger_eq_whole (by omega) (by omega)
  rw [Value.document, hwhole]
  exact .natural h

/-- The value of a field that may be null. -/
def optionalDatum : Option String → Datum
  | some s => .text s
  | none => .absent

/-- A field that may be null is spelled by a text or by null. -/
theorem spells_optional (s : Option String) :
    Shape.Spells (.optional .text) (Value.optional s).document (optionalDatum s) := by
  cases s with
  | none => exact .absent .text
  | some s => exact .present nofun (.text s)

/-- A field that may be null gives back what it was written from. -/
theorem text?_optionalDatum {r : Row} {name : String} {s : Option String}
    (h : r name = some (optionalDatum s)) : r.text? name = s := by
  rw [Row.text?, h]
  cases s with | none | some => rfl

/-- A text gives back what it was written from, nothing included. -/
theorem text_map {r : Row} {name : String} {s : Option String} (h : r name = s.map .text) :
    r.text name = s.getD "" := by
  rw [Row.text, Row.text?, h]
  cases s with | none | some => rfl

/-- Texts are written as texts, one for each. -/
theorem documents_map_text (ss : List String) :
    Value.documents (ss.map .text) = ss.map fun s => .text (.sound s) := by
  induction ss with
  | nil => rfl
  | cons s ss ih =>
      rw [List.map_cons, Value.documents, ih]
      rfl

/-- A list of actions is spelled by the list of its texts, in their order and with their
repetitions. -/
theorem spells_texts (ss : List String) :
    Shape.Spells .texts (Value.texts ss).document (.texts ss) := by
  have hdocument : (Value.texts ss).document = .texts ss := congrArg _ (documents_map_text ss)
  rw [hdocument]
  exact .texts ss

/-! ## Written entities -/

namespace Policy

/-- The names under which a policy is written. -/
def names : List String :=
  ["owner_id", "subject", "object", "actions", "created_at", "updated_at", "updated_by"]

/-- The members of a written policy. -/
def members (p : Policy) : List (String × Value) :=
  [("owner_id", .text p.owner), ("subject", .text p.subject), ("object", .text p.object),
   ("actions", .texts p.actions), ("created_at", .text p.createdAt.render),
   ("updated_at", .text p.updatedAt.render), ("updated_by", .text p.updatedBy)]

theorem toJson_eq (p : Policy) : p.toJson = .object p.members := rfl

/-- A written policy is read back. -/
theorem ofText_render (now : Timestamp) {p : Policy} (hcreated : p.createdAt.Plain)
    (hupdated : p.updatedAt.Plain) : (schema now).ofText p.toJson.render = .ok p := by
  have hnodup : names.Nodup := by decide
  rw [toJson_eq]
  refine (Schema.ofText_eq_ok_iff (s := schema now) hnodup (isObject_render _)).2
    ⟨[some (.text p.owner), some (.text p.subject), some (.text p.object), some (.texts p.actions),
      some (.instant p.createdAt), some (.instant p.updatedAt), some (.text p.updatedBy)], ?_, rfl⟩
  refine isRecord_of_forall₂ hnodup ?_
  refine .cons (Field.takes_of_spells rfl (.text _)) ?_
  refine .cons (Field.takes_of_spells rfl (.text _)) ?_
  refine .cons (Field.takes_of_spells rfl (.text _)) ?_
  refine .cons (Field.takes_of_spells rfl (spells_texts _)) ?_
  refine .cons (Field.takes_of_spells rfl (spells_instant hcreated)) ?_
  refine .cons (Field.takes_of_spells rfl (spells_instant hupdated)) ?_
  exact .cons (Field.takes_of_spells rfl (.text _)) .nil

end Policy

namespace Client

/-- The names under which a client is written. -/
def names : List String :=
  ["id", "name", "owner_id", "secret", "status", "created_at", "updated_at"]

/-- A written client is read back. -/
theorem ofText_render (now : Timestamp) {c : Client} (hcreated : c.createdAt.Plain)
    (hupdated : c.updatedAt.Plain) : (schema now).ofText c.toJson.render = .ok c := by
  have hnodup : names.Nodup := by decide
  refine (Schema.ofText_eq_ok_iff (s := schema now) hnodup (isObject_render _)).2
    ⟨[some (.text c.id), some (.text c.name), some (.text c.owner), some (.text c.secret),
      some (.text c.status.name), some (.instant c.createdAt), some (.instant c.updatedAt)],
      ?_, ?_⟩
  · refine isRecord_of_forall₂ hnodup ?_
    refine .cons (Field.takes_of_spells rfl (.text _)) ?_
    refine .cons (Field.takes_of_spells rfl (.text _)) ?_
    refine .cons (Field.takes_of_spells rfl (.text _)) ?_
    refine .cons (Field.takes_of_spells rfl (.text _)) ?_
    refine .cons (Field.takes_of_spells rfl (spells_status _)) ?_
    refine .cons (Field.takes_of_spells rfl (spells_instant hcreated)) ?_
    exact .cons (Field.takes_of_spells rfl (spells_instant hupdated)) .nil
  · show ({ c with status := (Status.ofName? c.status.name).getD .enabled } : Client) = c
    rw [Status.ofName?_name]
    rfl

end Client

namespace Group

/-- The names under which a group is written, the last of them only if the group has a path. -/
def names : List String :=
  ["id", "name", "description", "owner_id", "parent_id", "status", "created_at", "updated_at",
   "level", "path"]

/-- The members of a written group that are always there. -/
def head (g : Group) : List (String × Value) :=
  [("id", .text g.id), ("name", .text g.name), ("description", .text g.description),
   ("owner_id", .text g.owner), ("parent_id", .optional g.parent), ("status", .text g.status.name),
   ("created_at", .text g.createdAt.render), ("updated_at", .text g.updatedAt.render),
   ("level", .integer g.level)]

/-- The member for a path, if there is one. -/
def pathMembers (path : Option String) : List (String × Value) :=
  match path with
  | some p => [("path", .text p)]
  | none => []

/-- The head of a group and a path, if there is one, are a record.  The fields are taken one after
the other in the order of the schema; only the last depends on whether there is a path. -/
theorem isRecord_head (now : Timestamp) {g : Group} (hcreated : g.createdAt.Plain)
    (hupdated : g.updatedAt.Plain) (hlevel : g.level < Word.bound 64) (path : Option String) :
    IsRecord (schema now).fields (.ofMembers ((g.head ++ pathMembers path).map asFound))
      [some (.text g.id), some (.text g.name), some (.text g.description), some (.text g.owner),
       some (optionalDatum g.parent), some (.text g.status.name), some (.instant g.createdAt),
       some (.instant g.updatedAt), some (.natural g.level), path.map .text] := by
  have hnodup : names.Nodup := by decide
  have hpath : (textField "path").Takes ((g.head ++ pathMembers path).map asFound)
      (path.map .text) := by
    cases path with
    | none => exact ⟨rfl, nofun⟩
    | some p => exact Field.takes_of_spells rfl (.text p)
  -- the members stand in the order of the fields
  refine isRecord_of_forall₂ hnodup ?_
  cases path with
  | none | some p =>
    refine .cons (Field.takes_of_spells rfl (.text _)) ?_
    refine .cons (Field.takes_of_spells rfl (.text _)) ?_
    refine .cons (Field.takes_of_spells rfl (.text _)) ?_
    refine .cons (Field.takes_of_spells rfl (.text _)) ?_
    refine .cons (Field.takes_of_spells rfl (spells_optional _)) ?_
    refine .cons (Field.takes_of_spells rfl (spells_status _)) ?_
    refine .cons (Field.takes_of_spells rfl (spells_instant hcreated)) ?_
    refine .cons (Field.takes_of_spells rfl (spells_instant hupdated)) ?_
    refine .cons (Field.takes_of_spells rfl (spells_natural hlevel)) ?_
    exact .cons hpath .nil

/-- The path that is written of a group. -/
def writtenPath (g : Group) : Option String := if g.path = "" then none else some g.path

theorem toJson_eq (g : Group) : g.toJson = .object (g.head ++ pathMembers g.writtenPath) := by
  unfold toJson writtenPath
  split <;> rfl

/-- A path that is not written is empty. -/
theorem getD_writtenPath (g : Group) : g.writtenPath.getD "" = g.path := by
  unfold writtenPath
  split
  · next h => exact h.symm
  · rfl

/-- A written group is read back. -/
theorem ofText_render (now : Timestamp) {g : Group} (hcreated : g.createdAt.Plain)
    (hupdated : g.updatedAt.Plain) (hlevel : g.level < Word.bound 64) :
    (schema now).ofText g.toJson.render = .ok g := by
  have hnodup : names.Nodup := by decide
  rw [toJson_eq]
  refine (Schema.ofText_eq_ok_iff (s := schema now) hnodup (isObject_render _)).2
    ⟨_, isRecord_head now hcreated hupdated hlevel g.writtenPath, ?_⟩
  have hparent : Row.text? (fun _ => some (optionalDatum g.parent)) "parent_id" = g.parent :=
    text?_optionalDatum rfl
  have hpath : Row.text (fun _ => g.writtenPath.map .text) "path" = g.path :=
    (text_map rfl).trans g.getD_writtenPath
  show ({ g with
      parent := Row.text? (fun _ => some (optionalDatum g.parent)) "parent_id"
      status := (Status.ofName? g.status.name).getD .enabled
      path := Row.text (fun _ => g.writtenPath.map .text) "path" } : Group) = g
  rw [hparent, Status.ofName?_name, hpath]
  rfl

end Group

/-- **Round trip.**  A policy, a client or a group whose instants are plain is read back from what
is written of it, whatever its texts, actions, status, parent, level and path; and all three are
read by the names of their members, whatever their order and whatever other members there are. -/
theorem entities_read_back (now : Timestamp) :
    (∀ p : Policy, p.createdAt.Plain → p.updatedAt.Plain →
      (Policy.schema now).ofText p.toJson.render = .ok p) ∧
    (∀ c : Client, c.createdAt.Plain → c.updatedAt.Plain →
      (Client.schema now).ofText c.toJson.render = .ok c) ∧
    (∀ g : Group, g.createdAt.Plain → g.updatedAt.Plain → g.level < Word.bound 64 →
      (Group.schema now).ofText g.toJson.render = .ok g) ∧
    (Policy.schema now).ReadsByName Policy.names ∧ (Client.schema now).ReadsByName Client.names ∧
      (Group.schema now).ReadsByName Group.names := by
  refine ⟨fun _ => Policy.ofText_render now, fun _ => Client.ofText_render now,
    fun _ => Group.ofText_render now, ?_, ?_, ?_⟩
  · exact Schema.readsByName rfl (by decide)
  · exact Schema.readsByName rfl (by decide)
  · exact Schema.readsByName rfl (by decide)

/-- The first instant of the year 0. -/
def firstPlain : Timestamp := ⟨-62167219200, 0⟩

/-- The last instant of the year 9999. -/
def lastPlain : Timestamp := ⟨253402300799, 999999999⟩

/-- A policy with texts that must be escaped, and with an action that is repeated. -/
def strangePolicy : Policy where
  owner := "\"\n"
  subject := "\\é"
  object := "😀"
  actions := ["write", "", "write"]
  createdAt := firstPlain
  updatedAt := lastPlain
  updatedBy := "\x00"

/-- A client that is in no state of its own. -/
def strangeClient : Client where
  id := ""
  name := "/"
  owner := "\t"
  secret := "null"
  status := .all
  createdAt := ⟨0, 1000⟩
  updatedAt := ⟨0, 120000000⟩

/-- A group of the greatest level, with a path or without one. -/
def strangeGroup (parent : Option String) (path : String) : Group where
  id := "id"
  name := "path"
  description := "\"path\":"
  owner := ""
  parent
  status := .disabled
  createdAt := lastPlain
  updatedAt := firstPlain
  level := 18446744073709551615
  path

/-- They are all read back, and a policy from members in the reverse order after an unknown one. -/
theorem strange_read_back :
    firstPlain.Plain ∧ lastPlain.Plain ∧
    (Policy.schema firstPlain).ofText strangePolicy.toJson.render = .ok strangePolicy ∧
    (Client.schema firstPlain).ofText strangeClient.toJson.render = .ok strangeClient ∧
    (Group.schema firstPlain).ofText (strangeGroup none "").toJson.render =
      .ok (strangeGroup none "") ∧
    (Group.schema firstPlain).ofText (strangeGroup (some "") "a/b").toJson.render =
      .ok (strangeGroup (some "") "a/b") ∧
    (Policy.schema firstPlain).ofText
      (Value.object (("note", .array [.null]) :: strangePolicy.members.reverse)).render =
        .ok strangePolicy := by
  have hfirst : firstPlain.Plain := ⟨by decide, by decide⟩
  have hlast : lastPlain.Plain := ⟨by decide, by decide⟩
  have hlevel : 18446744073709551615 < Word.bound 64 := by decide
  obtain ⟨hpolicy, hclient, hgroup, hnames, -, -⟩ := entities_read_back firstPlain
  have hread := hpolicy strangePolicy hfirst hlast
  refine ⟨hfirst, hlast, hread, hclient _ ⟨by decide, by decide⟩
    ⟨by decide, by decide⟩, hgroup _ hlast hfirst hlevel, hgroup _ hlast hfirst hlevel, ?_⟩
  have hknown : under Policy.names
      ((("note", .array [.null]) :: strangePolicy.members.reverse).map asFound) =
        under Policy.names (strangePolicy.members.reverse.map asFound) :=
    List.filter_cons_of_neg (by decide)
  have hperm := ((List.reverse_perm strangePolicy.members).map asFound).filter
    fun m => m.1 ∈ Policy.names
  exact (hnames _ _ _ _ (isObject_render _) (isObject_render _) (hknown ▸ hperm) _).2 hread

end Gatehouse
