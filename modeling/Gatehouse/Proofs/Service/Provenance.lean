import Gatehouse.Proofs.Service.Effect
import Gatehouse.Proofs.Service.Gate
import Gatehouse.Proofs.Store.WellFormed
import Gatehouse.Proofs.Token.Genuine

/-!
# Gatehouse.Proofs.Service.Provenance — what is stored stays well-formed, and where it came from

What an operation adds to a store is made up of what was asked for, of the subject of a token and of
fresh names.  `Operation.Made` says what holds of it whatever was asked for, as long as no access
token is without a subject (`TokenIssuer.NamesSubjects`).  With that, every operation keeps a store
well-formed (`WellFormed.of_effect`), and it is one `Step` (`step_of_effect`).

* `history_well_formed` : both, after every history that begins with an empty store.

Nothing is assumed of what is asked for.  A group may be asked for with a status, a level and a path
that no group is stored with, a client without a name, a policy with actions in disorder; what is
stored is put right on the way, or the operation is refused.  The one assumption is on tokens, since
the subject of a token becomes the owner of what is created, and it holds of every signer
(`TokenSigner.namesSubjects`).

Two descriptions of an operation come together here.  Its effect says what the tables hold in terms
of its answer, and `Made` says what kind of answer it can be; neither mentions the steps in between.
-/

namespace Gatehouse

open Gatehouse.Time

/-! ## Subjects and fresh names -/

/-- Whether all access tokens that are accepted name a subject. -/
def TokenIssuer.NamesSubjects (tokens : TokenIssuer) : Prop :=
  ∀ time token c, tokens.parse time token = .ok c → c.kind = .access → c.subject ≠ ""

/-- No signer accepts a token without a subject. -/
theorem TokenSigner.namesSubjects (s : TokenSigner) : s.toIssuer.NamesSubjects := by
  intro time token c h _
  have hparse : s.keyed.parse time token = .ok c := h
  obtain ⟨⟨members, -, -, hsubject, -⟩, -⟩ := KeyedSigner.genuine_of_parse hparse
  exact hsubject

/-- A fresh name is not empty. -/
theorem freshName_ne_empty (n : Nat) : freshName n ≠ "" := by
  intro h
  have hnil : (freshName n).toList = [] := congrArg String.toList h
  unfold freshName at hnil
  simp at hnil

/-! ## What procedures yield -/

/-- Whether an answer that is to be a fresh name is one. -/
def ServiceCall.Fresh : (c : ServiceCall) → c.Reply → Prop
  | .freshId, (name : String) => name ≠ ""
  | _, _ => True

/-- A world gives fresh names. -/
theorem World.fresh_answer (c : ServiceCall) (w : World) : c.Fresh (w.answer c).1 := by
  cases c with
  | freshId => exact freshName_ne_empty w.ids
  | store | cache | journal | clock | note | countLookup | countCall | countRequest | countOutcome
  | counts => trivial

namespace Procedure

variable {α β : Type} {x : Procedure α} {f : α → Procedure β} {P : α → Prop} {R : β → Prop}

/-- Whether a procedure that gets fresh names where it asks for them ends in values within `P`. -/
def Yields (x : Procedure α) (P : α → Prop) : Prop :=
  x.run.ReturnsIf ServiceCall.Fresh fun r => ∀ a, r = .ok a → P a

theorem yields_pure {a : α} (h : P a) : (pure a : Procedure α).Yields P := by
  rintro _ ⟨⟩
  exact h

theorem yields_throw (e : ApiError) : (throw e : Procedure α).Yields P := nofun

/-- What two procedures yield one after the other is what the second makes of what the first
yields. -/
theorem yields_bind (hx : x.Yields P) (hf : ∀ a, P a → (f a).Yields R) : (x >>= f).Yields R := by
  refine Program.returnsIf_bind hx ?_
  rintro (e | a) hr
  · exact nofun
  · exact hf a (hr a rfl)

/-- Of a procedure whose value does not matter, nothing needs to be known. -/
theorem yields_then (hf : ∀ a, (f a).Yields R) : (x >>= f).Yields R := by
  refine yields_bind (P := fun _ => True) ?_ fun a _ => hf a
  exact Program.returnsIf_of_forall (fun _ _ _ => trivial) x.run

theorem yields_freshId : freshId.Yields (· ≠ "") := by
  rintro name hname _ ⟨⟩
  exact hname

/-- A name that is given or fresh is not empty. -/
theorem yields_name_bind {given : String} {f : String → Procedure β}
    (hf : ∀ name, name ≠ "" → (f name).Yields R) :
    (if given = "" then freshId >>= f else pure given >>= f).Yields R := by
  split
  · exact yields_bind yields_freshId hf
  · next h => exact hf given h

theorem Yields.run (h : x.Yields P) {w : World} {a : α} (hrun : (w.run x).1 = .ok a) : P a :=
  Program.run_returnsIf World.fresh_answer h w a hrun

end Procedure

/-! ## What operations make -/

/-- What holds of the answer of an operation that creates something, whatever was asked for. -/
def Operation.Made : (op : Operation) → op.Answer → Prop
  | addPolicy _ p, (added : Policy) => added.key = p.key ∧ added.owner ≠ ""
  | createGroup _ _, (g : Group) => g.owner ≠ "" ∧ g.id ≠ "" ∧ g.level = 0 ∧ g.path = ""
  | registerClient _ _, (c : Client) => c.owner ≠ "" ∧ c.id ≠ "" ∧ c.secret ≠ ""
  | _, _ => True

namespace Engine

open Procedure

variable {tokens : TokenIssuer}

/-- Whoever is admitted has a name. -/
theorem yields_caller (h : tokens.NamesSubjects) (token : String) :
    (caller tokens token).Yields fun c => c.subject ≠ "" := by
  refine yields_then fun time => ?_
  cases hparse : tokens.parse time.seconds token with
  | error e => exact yields_then fun _ => yields_throw _
  | ok c =>
      dsimp only
      split
      · next hkind => exact yields_pure (h _ _ _ hparse hkind)
      · exact yields_then fun _ => yields_throw _

/-- A policy that is added has the key that was asked for, and is owned by whoever asked. -/
theorem yields_addPolicy (h : tokens.NamesSubjects) (token : String) (p : Policy) :
    (addPolicy tokens token p).Yields (Operation.addPolicy token p).Made := by
  refine yields_bind (yields_caller h token) fun claims hsubject => ?_
  refine yields_then fun _ => yields_then fun time => ?_
  refine yields_then fun _ => yields_then fun _ => yields_then fun _ => ?_
  exact yields_pure ⟨rfl, hsubject⟩

/-- A group that is created has an owner and an id, and stands on level zero without a path. -/
theorem yields_createGroup (h : tokens.NamesSubjects) (token : String) (g : Group) :
    (createGroup tokens token g).Yields (Operation.createGroup token g).Made := by
  refine yields_bind (yields_caller h token) fun claims hsubject => ?_
  cases g.parent
  case' some parent => refine yields_then fun _ => ?_
  -- with a parent or without one, the same steps follow
  all_goals
    refine yields_then fun time => yields_name_bind fun id hid => ?_
    refine yields_then fun _ => yields_then fun _ => yields_then fun _ => yields_then fun _ => ?_
    exact yields_pure ⟨hsubject, hid, rfl, rfl⟩

/-- A client that is registered has an owner, an id and a secret. -/
theorem yields_registerClient (h : tokens.NamesSubjects) (token : String) (c : Client) :
    (registerClient tokens token c).Yields (Operation.registerClient token c).Made := by
  refine yields_bind (yields_caller h token) fun claims hsubject => ?_
  refine yields_then fun time => ?_
  refine yields_name_bind fun id hid => yields_name_bind fun secret hsecret => ?_
  refine yields_then fun _ => yields_then fun _ => yields_then fun _ => yields_then fun _ => ?_
  exact yields_pure ⟨hsubject, hid, hsecret⟩

/-- **What operations make.**  Those that create nothing promise nothing. -/
theorem yields_serve (h : tokens.NamesSubjects) (op : Operation) :
    (serve tokens op).Yields op.Made := by
  cases op with
  | addPolicy token p => exact yields_addPolicy h token p
  | createGroup token g => exact yields_createGroup h token g
  | registerClient token c => exact yields_registerClient h token c
  | issue | refresh | identify | authorize | updatePolicy | deletePolicy | listPolicies
  | canAccessByKey | canAccessById | identifyThing | listGroups | listMemberships | enableGroup
  | disableGroup | enableClient | disableClient =>
      exact Program.returnsIf_of_forall (fun _ _ _ => trivial) _

end Engine

/-! ## Stores stay well-formed -/

namespace Policy

/-- A policy that was checked and put in order is well-formed. -/
theorem wellFormed_of_normalized {p added : Policy} (hvalid : p.validate = .ok ())
    (hkey : added.key = p.key) (hactions : added.actions = normalizeActions p.actions)
    (howned : added.owner ≠ "") : added.WellFormed := by
  obtain ⟨hsubject, hobject, hne, hall⟩ := validate_eq_ok_iff.1 hvalid
  obtain ⟨hsubjects, hobjects⟩ := PolicyKey.mk.inj hkey
  refine ⟨validate_eq_ok_iff.2 ⟨?_, ?_, ?_, ?_⟩, ?_, howned⟩
  · rw [hsubjects]; exact hsubject
  · rw [hobjects]; exact hobject
  · rw [hactions]; exact normalizeActions_ne_nil hne
  · rw [hactions]; exact fun a ha => hall a (mem_of_mem_normalizeActions ha)
  · rw [hactions]; exact nodup_normalizeActions p.actions

theorem wellFormed_ownerPolicy {time : Timestamp} {owner object : String} (howner : owner ≠ "")
    (hobject : object ≠ "") (kind : EntityType) :
    (Engine.ownerPolicy time owner object kind.actions).WellFormed := by
  refine ⟨validate_eq_ok_iff.2 ⟨howner, hobject, ?_, ?_⟩, ?_, howner⟩
  · cases kind <;> exact List.cons_ne_nil _ _
  · show ∀ a ∈ kind.actions, isAction a = true
    cases kind <;> decide
  · show kind.actions.Nodup
    cases kind <;> decide

end Policy

namespace Store

variable {s t : Store} {op : Operation} {a : op.Answer}

/-- A group stays well-formed when its status changes. -/
theorem WellFormed.of_switchesGroup (h : s.WellFormed) (hsound : t.Sound) {id : String}
    {status : Status} {g : Group} (hstatus : status = .enabled ∨ status = .disabled)
    (hswitch : SwitchesGroup id status g s t) : t.WellFormed := by
  obtain ⟨⟨old, time, hold, rfl⟩, hpolicies, hclients, hgroups⟩ := hswitch
  obtain ⟨hid, hnamed, -, hlevel, hpath⟩ := h.groups hold
  exact ⟨hsound, hpolicies ▸ h.policies, hclients ▸ h.clients,
    hgroups ▸ h.groups.insert ⟨hid, hnamed, hstatus, hlevel, hpath⟩⟩

/-- A client stays well-formed when its status changes. -/
theorem WellFormed.of_switchesClient (h : s.WellFormed) (hsound : t.Sound) {id : String}
    {status : Status} {c : Client} (hstatus : status = .enabled ∨ status = .disabled)
    (hswitch : SwitchesClient id status c s t) : t.WellFormed := by
  obtain ⟨⟨old, time, hold, rfl⟩, hpolicies, hclients, hgroups⟩ := hswitch
  obtain ⟨hnamed, hsecret, -⟩ := h.clients hold
  exact ⟨hsound, hpolicies ▸ h.policies, hclients ▸ h.clients.insert ⟨hnamed, hsecret, hstatus⟩,
    hgroups ▸ h.groups⟩

/-- What an operation that is answered makes of a well-formed store is well-formed. -/
theorem WellFormed.of_effect (h : s.WellFormed) (hsound : t.Sound) (hmade : op.Made a)
    (heffect : op.Effect a s t) : t.WellFormed := by
  cases op with
  | addPolicy token p =>
      obtain ⟨hvalid, hactions, hadds, hclients, hgroups⟩ := heffect
      refine ⟨hsound, hadds.policies ▸ h.policies.insert ?_, hclients ▸ h.clients,
        hgroups ▸ h.groups⟩
      exact Policy.wellFormed_of_normalized hvalid hmade.1 hactions hmade.2
  | updatePolicy token p =>
      obtain ⟨hvalid, hactions, hpolicies, hclients, hgroups⟩ := heffect
      refine ⟨hsound, hpolicies ▸ h.policies.modify ?_, hclients ▸ h.clients, hgroups ▸ h.groups⟩
      intro old hold
      -- only its actions can make the amended policy ill-formed, and these were normalized
      obtain ⟨hne, hall⟩ := Policy.actions_of_validate hvalid
      refine hold.amend ?_ ?_ ?_
      · rw [hactions]; exact Policy.normalizeActions_ne_nil hne
      · rw [hactions]; exact fun a ha => hall a (Policy.mem_of_mem_normalizeActions ha)
      · rw [hactions]; exact Policy.nodup_normalizeActions p.actions
  | deletePolicy token key =>
      obtain ⟨hpolicies, hclients, hgroups⟩ := heffect
      exact ⟨hsound, hpolicies ▸ h.policies.erase key, hclients ▸ h.clients, hgroups ▸ h.groups⟩
  | createGroup token asked =>
      obtain ⟨hstatus, ⟨time, hadds⟩, hclients, hgroups⟩ := heffect
      obtain ⟨howner, hid, hlevel, hpath⟩ := hmade
      refine ⟨hsound, hadds.policies ▸ h.policies.insert ?_, hclients ▸ h.clients,
        hgroups ▸ h.groups.insert ⟨rfl, hid, Or.inl hstatus, hlevel, hpath⟩⟩
      exact Policy.wellFormed_ownerPolicy howner hid .group
  | registerClient token asked =>
      obtain ⟨hstatus, ⟨time, hadds⟩, hclients, hgroups⟩ := heffect
      obtain ⟨howner, hid, hsecret⟩ := hmade
      refine ⟨hsound, hadds.policies ▸ h.policies.insert ?_,
        hclients ▸ h.clients.insert ⟨hid, hsecret, Or.inl hstatus⟩, hgroups ▸ h.groups⟩
      exact Policy.wellFormed_ownerPolicy howner hid .client
  | enableGroup => exact h.of_switchesGroup hsound (Or.inl rfl) heffect
  | disableGroup => exact h.of_switchesGroup hsound (Or.inr rfl) heffect
  | enableClient => exact h.of_switchesClient hsound (Or.inl rfl) heffect
  | disableClient => exact h.of_switchesClient hsound (Or.inr rfl) heffect
  | issue | refresh | identify | authorize | listPolicies | canAccessByKey | canAccessById
  | identifyThing | listGroups | listMemberships => exact h.of_sameTables heffect

/-- What an operation that is answered changes is one step. -/
theorem step_of_effect (h : s.Keeps t) (heffect : op.Effect a s t) : s.Step t := by
  cases op with
  | addPolicy token p =>
      obtain ⟨-, -, hadds, hclients, hgroups⟩ := heffect
      exact ⟨h, hadds.policies ▸ Table.close_insert _ _ _, Table.close_of_eq hclients,
        Table.close_of_eq hgroups, sameOrigin_of_insert hadds.free hadds.policies⟩
  | updatePolicy token p =>
      obtain ⟨-, -, hpolicies, hclients, hgroups⟩ := heffect
      exact ⟨h, hpolicies ▸ Table.close_modify _ _ _, Table.close_of_eq hclients,
        Table.close_of_eq hgroups, sameOrigin_of_amend hpolicies⟩
  | deletePolicy token key =>
      obtain ⟨hpolicies, hclients, hgroups⟩ := heffect
      exact ⟨h, hpolicies ▸ Table.close_erase _ _, Table.close_of_eq hclients,
        Table.close_of_eq hgroups, sameOrigin_of_erase hpolicies⟩
  -- two tables change, each in one place
  | createGroup token asked =>
      obtain ⟨-, ⟨time, hadds⟩, hclients, hgroups⟩ := heffect
      exact ⟨h, hadds.policies ▸ Table.close_insert _ _ _, Table.close_of_eq hclients,
        hgroups ▸ Table.close_insert _ _ _, sameOrigin_of_insert hadds.free hadds.policies⟩
  | registerClient token asked =>
      obtain ⟨-, ⟨time, hadds⟩, hclients, hgroups⟩ := heffect
      exact ⟨h, hadds.policies ▸ Table.close_insert _ _ _, hclients ▸ Table.close_insert _ _ _,
        Table.close_of_eq hgroups, sameOrigin_of_insert hadds.free hadds.policies⟩
  | enableGroup | disableGroup =>
      obtain ⟨-, hpolicies, hclients, hgroups⟩ := heffect
      exact ⟨h, Table.close_of_eq hpolicies, Table.close_of_eq hclients,
        hgroups ▸ Table.close_insert _ _ _, sameOrigin_of_eq hpolicies⟩
  | enableClient | disableClient =>
      obtain ⟨-, hpolicies, hclients, hgroups⟩ := heffect
      exact ⟨h, Table.close_of_eq hpolicies, hclients ▸ Table.close_insert _ _ _,
        Table.close_of_eq hgroups, sameOrigin_of_eq hpolicies⟩
  | issue | refresh | identify | authorize | listPolicies | canAccessByKey | canAccessById
  | identifyThing | listGroups | listMemberships => exact h.step_of_sameTables heffect

end Store

/-! ## Histories -/

namespace World

variable {tokens : TokenIssuer} {w : World}

/-- No run takes away an entity, or the owner and the beginning of what is stored. -/
theorem keeps_run {α : Type} (w : World) (x : Procedure α) : w.store.Keeps (w.run x).2.store :=
  run_store_of_answer (R := Store.Keeps) Store.Keeps.refl (fun _ _ _ => Store.Keeps.trans)
    Store.keeps_answer w x.run

/-- An operation keeps a store well-formed. -/
theorem wellFormed_serve (hnames : tokens.NamesSubjects) (h : w.Reliable)
    (hstore : w.store.WellFormed) (op : Operation) :
    (w.run (Engine.serve tokens op)).2.store.WellFormed := by
  obtain ⟨hchanges, -⟩ := changes_serve tokens h op
  have hsound := sound_run (Engine.serve tokens op) hstore.toSound
  rcases hanswer : (w.run (Engine.serve tokens op)).1 with e | a
  · rw [hanswer] at hchanges
    exact hstore.of_sameTables hchanges
  · rw [hanswer] at hchanges
    exact hstore.of_effect hsound ((Engine.yields_serve hnames op).run hanswer) hchanges

/-- An operation is one step of the store. -/
theorem step_serve (tokens : TokenIssuer) (h : w.Reliable) (op : Operation) :
    w.store.Step (w.run (Engine.serve tokens op)).2.store := by
  obtain ⟨hchanges, -⟩ := changes_serve tokens h op
  have hkeeps := keeps_run w (Engine.serve tokens op)
  rcases hanswer : (w.run (Engine.serve tokens op)).1 with e | a
  · rw [hanswer] at hchanges
    exact hkeeps.step_of_sameTables hchanges
  · rw [hanswer] at hchanges
    exact Store.step_of_effect hkeeps hchanges

/-- **Stored data stays well-formed, and its origin is kept.**  After every history that begins with
an empty store, all that is stored is well-formed.  Whatever operation comes next changes one
policy, one client and one group at most; it leaves policies the owner and the time of their
creation, and clients and groups all but their status and the time of their last update. -/
theorem history_well_formed {tokens : TokenIssuer} (hnames : tokens.NamesSubjects) {w₀ : World}
    (hreliable : w₀.Reliable) (hempty : w₀.store = ∅) (visits : List Visit) :
    let w := w₀.after tokens visits
    w.store.WellFormed ∧
      ∀ wait op, w.store.Step ((w.elapse wait).run (Engine.serve tokens op)).2.store := by
  have hstart : w₀.store.WellFormed := by
    rw [hempty]
    exact Store.wellFormed_empty
  obtain ⟨hlater, hstore⟩ := hreliable.keeps_after hstart
    (fun _ op h hstore => wellFormed_serve hnames h hstore op) visits
  exact ⟨hstore, fun wait op => step_serve tokens (w := World.elapse _ wait) hlater op⟩

theorem namesSubjects_marked : TokenIssuer.marked.NamesSubjects := by
  intro _ token c hparse haccess hsubject
  unfold TokenIssuer.marked at hparse
  dsimp only at hparse
  split at hparse
  · cases hparse
  · cases hparse
    cases haccess
  · next name hne _ =>
    cases hparse
    exact hne (by simpa using congrArg String.toList hsubject)

/-- A history in which Ann asks for a room and a nameless client that are as they should not be, and
for a policy that says one thing twice. -/
def untidyHistory : List Visit :=
  [⟨0, .createGroup "ann" { askedGroup "room" with status := .all, level := 3, path := "hall" }⟩,
   ⟨0, .registerClient "ann" { askedClient "" with status := .all }⟩,
   ⟨0, .addPolicy "ann"
      ⟨"", "bell", "room", ["m_write", "m_read", "m_write"], ⟨0, 0⟩, ⟨0, 0⟩, ""⟩⟩]

/-- What is stored is as it should be, and to disable the room changes nothing else. -/
theorem untidyHistory_well_formed :
    let w := (empty 60000000000 0).after .marked untidyHistory
    let disabled := (w.elapse 5).run (Engine.serve .marked (.disableGroup "ann" "room"))
    w.store.WellFormed ∧ w.store.clients.keys = [freshName 0] ∧
      (w.store.policies.lookup ⟨"bell", "room"⟩).map (·.owner) = some "ann" ∧
      disabled.1.isOk ∧ w.store.Step disabled.2.store := by
  intro w disabled
  have hreliable : (empty 60000000000 0).Reliable := fun _ => rfl
  obtain ⟨hstore, hstep⟩ :=
    history_well_formed namesSubjects_marked hreliable rfl untidyHistory
  exact ⟨hstore, by decide +kernel, by decide +kernel, by decide +kernel, hstep _ _⟩

end World

end Gatehouse
