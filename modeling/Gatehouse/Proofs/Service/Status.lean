import Gatehouse.Proofs.Service.Effect
import Gatehouse.Proofs.Service.Outcome
import Gatehouse.Proofs.Store.WellFormed

/-!
# Gatehouse.Proofs.Service.Status — entities are disabled and enabled in turn

Groups and clients are enabled when they are created, whatever was asked for, and their status is
changed by four operations, which are one here: an entity of a kind is to get a status
(`Operation.switch?`).

* `World.Switches` : what an attempt comes to, `switches_serve` : that it comes to this.
* `World.statusOf_serve` : no operation but one that changes the status of an entity does so.
* `status_changes_alternate` : over a whole history the changes that succeed alternate, and all
  others are refused.

The status of an entity that is not there counts as enabled (`Store.statusOf`).  This makes one
statement of two: what a creation does to a status is nothing, since an entity is created enabled;
and then the status of an entity, from the beginning of a history on, changes only where an attempt
succeeds.  It needs that no operation creates an entity that is there already, which would enable it
again (`standing_eq_none_of_created`).

That the changes alternate is an induction on the history.  An attempt succeeds only if the entity
has the other status, so each success gives the status that the one before it did not give.

The four operations have one description because they are one in the engine, but for what they tell
the caches: a client that is disabled is to be forgotten together with its connections, a group is
in no cache.
-/

namespace Gatehouse

open Gatehouse.Time

/-! ## Entities and their status -/

/-- The owner and the status of an entity. -/
structure Standing where
  owner : String
  status : Status
deriving DecidableEq

/-- The action that a policy has to grant to whoever changes the status of an entity. -/
def EntityType.updateAction : EntityType → String
  | client => "c_update"
  | group => "g_update"

/-- The kind and the id of the entity that is to get a status, and the status. -/
def Operation.switch? : Operation → Option (EntityType × String × Status)
  | enableGroup _ id => some (.group, id, .enabled)
  | disableGroup _ id => some (.group, id, .disabled)
  | enableClient _ id => some (.client, id, .enabled)
  | disableClient _ id => some (.client, id, .disabled)
  | _ => none

/-- The other of the two statuses that an entity can have. -/
def Status.other : Status → Status
  | enabled => disabled
  | _ => enabled

/-- An entity has one of two statuses, so one that is not the old one is the other one. -/
theorem Status.eq_other {old new : Status} (hold : old ≠ .all) (hnew : new ≠ .all)
    (hne : old ≠ new) : new = old.other := by
  cases old <;> cases new <;> first | rfl | contradiction

theorem Status.other_other {status : Status} (h : status ≠ .all) : status.other.other = status := by
  cases status <;> first | rfl | contradiction

namespace Operation

/-- The four operations that change a status. -/
theorem switch_cases {P : Operation → EntityType → String → Status → Prop}
    (enableGroup : ∀ token id, P (.enableGroup token id) .group id .enabled)
    (disableGroup : ∀ token id, P (.disableGroup token id) .group id .disabled)
    (enableClient : ∀ token id, P (.enableClient token id) .client id .enabled)
    (disableClient : ∀ token id, P (.disableClient token id) .client id .disabled)
    {op : Operation} {kind : EntityType} {id : String} {status : Status}
    (h : op.switch? = some (kind, id, status)) : P op kind id status := by
  cases op with
  | enableGroup token id' =>
      cases h
      exact enableGroup token id
  | disableGroup token id' =>
      cases h
      exact disableGroup token id
  | enableClient token id' =>
      cases h
      exact enableClient token id
  | disableClient token id' =>
      cases h
      exact disableClient token id
  | issue | refresh | identify | authorize | addPolicy | updatePolicy | deletePolicy | listPolicies
  | canAccessByKey | canAccessById | identifyThing | createGroup | registerClient | listGroups
  | listMemberships => cases h

variable {op : Operation} {kind : EntityType} {id : String} {status : Status}

theorem status_ne_all (h : op.switch? = some (kind, id, status)) : status ≠ .all := by
  refine switch_cases (P := fun _ _ _ status => status ≠ .all) ?_ ?_ ?_ ?_ h <;>
    exact fun _ _ => nofun

theorem exists_token (h : op.switch? = some (kind, id, status)) :
    ∃ token, op.token? = some token := by
  refine switch_cases (P := fun op _ _ _ => ∃ token, op.token? = some token) ?_ ?_ ?_ ?_ h <;>
    exact fun token _ => ⟨token, rfl⟩

end Operation

namespace Store

/-- What is known of an entity of a kind. -/
def standing (s : Store) : EntityType → String → Option Standing
  | .client, id => (s.clients.lookup id).map fun c => ⟨c.owner, c.status⟩
  | .group, id => (s.groups.lookup id).map fun g => ⟨g.owner, g.status⟩

/-- The status of an entity; one that is not there yet counts as enabled, as it will be. -/
def statusOf (s : Store) (kind : EntityType) (id : String) : Status :=
  ((s.standing kind id).map Standing.status).getD .enabled

/-- Whether a caller may change the status of an entity: as an admin, as its owner, or by a policy
that grants it. -/
def MayUpdate (s : Store) (claims : Claims) (kind : EntityType) (id owner : String) : Prop :=
  claims.isAdmin = true ∨ owner = claims.subject ∨
    ∃ p, s.policies.lookup ⟨claims.subject, id⟩ = some p ∧ kind.updateAction ∈ p.actions

variable {s t : Store}

theorem standing_of_eq (hclients : t.clients = s.clients) (hgroups : t.groups = s.groups) :
    t.standing = s.standing := by
  funext kind id
  cases kind with
  | client =>
      unfold standing
      rw [hclients]
  | group =>
      unfold standing
      rw [hgroups]

/-- The answer to a change of the status of a group that is there. -/
theorem answer_setGroupStatus {now : Timestamp} {id : String} {old : Group}
    (hold : s.groups.lookup id = some old) (status : Status) :
    (s.answer now (.setGroupStatus id status)).1 = .ok { old with status, updatedAt := now } := by
  simp only [answer, setGroupStatus, hold]
  rfl

/-- The answer to a change of the status of a client that is there. -/
theorem answer_setClientStatus {now : Timestamp} {id : String} {old : Client}
    (hold : s.clients.lookup id = some old) (status : Status) :
    (s.answer now (.setClientStatus id status)).1 = .ok { old with status, updatedAt := now } := by
  simp only [answer, setClientStatus, hold]
  rfl

end Store

/-! ## Attempts -/

namespace World

variable {w : World} {tokens : TokenIssuer} {token id : String} {claims : Claims}
  {kind : EntityType} {status : Status} {α β : Type}

/-- What an attempt to give an entity a status comes to. -/
inductive Switches (w : World) (claims : Claims) (kind : EntityType) (id : String)
    (status : Status) : Except ApiError α → World → Prop where
  | unknown {n : Nat} (hmissing : w.store.standing kind id = none) :
    Switches w claims kind id status (.error .notFound) (w.reread n)
  | forbidden {n : Nat} {s : Standing} (hstored : w.store.standing kind id = some s)
    (hmay : ¬w.store.MayUpdate claims kind id s.owner) :
    Switches w claims kind id status (.error .authorization) (w.reread n)
  | already {n : Nat} {s : Standing} (hstored : w.store.standing kind id = some s)
    (hmay : w.store.MayUpdate claims kind id s.owner) (hsame : s.status = status) :
    Switches w claims kind id status (.error .statusAlreadyAssigned) (w.reread n)
  | switched {a : α} {w' : World} {s : Standing} (hstored : w.store.standing kind id = some s)
    (hmay : w.store.MayUpdate claims kind id s.owner) (hdiffers : s.status ≠ status) :
    Switches w claims kind id status (.ok a) w'

/-- The engine knows who may change the status of an entity. -/
theorem run_mayChange (h : w.Reliable) (claims : Claims) (kind : EntityType) (id owner : String) :
    ∃ n allowed, w.run (Engine.mayChange claims owner id kind.updateAction) =
        (.ok allowed, w.reread n) ∧
      (allowed = true ↔ w.store.MayUpdate claims kind id owner) := by
  unfold Engine.mayChange
  by_cases hadmin : claims.isAdmin = true
  · rw [if_pos hadmin]
    exact ⟨w.store.reads, true, rfl, iff_of_true rfl (Or.inl hadmin)⟩
  by_cases howner : owner = claims.subject
  · rw [if_neg hadmin, if_pos howner]
    exact ⟨w.store.reads, true, rfl, iff_of_true rfl (Or.inr (Or.inl howner))⟩
  rw [if_neg hadmin, if_neg howner]
  refine ⟨_, _, run_bind_of_ok (run_read h (c := .policy ⟨claims.subject, id⟩) rfl rfl), ?_⟩
  unfold Store.MayUpdate
  simp [hadmin, howner, Option.any_eq_true, Policy.hasAction]

/-- A cache that is told something lets the procedure go on. -/
theorem ends_tryCache (w : World) (c : CacheCall) (message : String)
    (fields : List (String × FieldValue)) :
    w.Ends (Engine.tryCache c message fields) fun r _ => r = .ok () := by
  have hrun : w.run (Procedure.cache c) = (.ok (w.answerCache c).1, (w.answerCache c).2) := rfl
  refine ends_bind_of_ok hrun ?_
  cases (w.answerCache c).1 with
  | ok => exact rfl
  | error e => exact rfl

/-- What the store answers to a call. -/
theorem ends_store (h : w.Reliable) {c : StoreCall} {a : c.Value}
    (ha : (w.store.answer (.ofNanos w.clock) c).1 = .ok a) :
    w.Ends (Procedure.store c) fun r _ => r = .ok a := by
  show (w.answerStore c).1.mapError ApiError.ofStorage = .ok a
  rw [answerStore_of_reliable h, ha]
  rfl

/-- Who may not change the status of an entity is refused. -/
theorem ends_mayUpdate (h : w.Reliable) (claims : Claims) (kind : EntityType) (id owner : String)
    {rest : Unit → Procedure β} {R : Except ApiError β → World → Prop}
    (hpassed : ∀ n, w.store.MayUpdate claims kind id owner → (w.reread n).Ends (rest ()) R)
    (hrefused : ∀ n, ¬w.store.MayUpdate claims kind id owner →
      R (.error .authorization) (w.reread n)) :
    w.Ends (do
      let allowed ← Engine.mayChange claims owner id kind.updateAction
      if (!allowed) = true then throw ApiError.authorization >>= rest else rest ()) R := by
  obtain ⟨n, allowed, hrun, hallowed⟩ := run_mayChange h claims kind id owner
  refine ends_bind_of_ok hrun (ends_refuse (fun hno => ?_) fun hyes => ?_)
  · refine hrefused n (mt hallowed.2 ?_)
    simpa using hno
  · refine hpassed n (hallowed.1 ?_)
    simpa using hyes

/-- **An attempt on a group.**  It is looked up; then the caller has to be one who may; then the
status has to be another one; and then the store is asked to change it. -/
theorem switches_setGroupStatus (h : w.Reliable) (hbearer : w.Admits tokens token claims)
    (id : String) (status : Status) :
    w.Ends (Engine.setGroupStatus tokens token id status)
      (w.Switches claims .group id status) := by
  refine ends_bind_of_ok (run_caller hbearer.1 hbearer.2) ?_
  cases hgroup : w.store.groups.lookup id with
  | none =>
      refine ends_read_bind h (c := .group id) rfl (congrArg Except.ok hgroup) (ends_throw ?_)
      exact .unknown (congrArg (Option.map _) hgroup)
  | some g =>
      have hstored : w.store.standing .group id = some ⟨g.owner, g.status⟩ :=
        congrArg (Option.map _) hgroup
      refine ends_read_bind h (c := .group id) rfl (congrArg Except.ok hgroup) ?_
      -- the group has been read once, which only counts
      have hreread : (w.reread (w.store.reads + 1)).Reliable := h
      refine ends_mayUpdate hreread claims .group id g.owner (fun n hmay => ?_) fun n hmay => ?_
      · refine ends_refuse (fun hsame => ?_) fun hdiffers => ?_
        · exact .already hstored hmay hsame
        · have hthere : (w.reread n).store.groups.lookup id = _ := hgroup
          have hanswer := ends_store (w := w.reread n) h
            (Store.answer_setGroupStatus hthere status)
          refine ends_bind_of_answer hanswer fun w' => ends_note_bind (ends_pure ?_)
          exact .switched hstored hmay hdiffers
      · exact .forbidden hstored hmay

/-- **An attempt on a client.**  As with a group, and the caches are told to forget the client if it
is disabled. -/
theorem switches_setClientStatus (h : w.Reliable) (hbearer : w.Admits tokens token claims)
    (id : String) (status : Status) :
    w.Ends (Engine.setClientStatus tokens token id status)
      (w.Switches claims .client id status) := by
  refine ends_bind_of_ok (run_caller hbearer.1 hbearer.2) ?_
  cases hclient : w.store.clients.lookup id with
  | none =>
      refine ends_read_bind h (c := .client id) rfl (congrArg Except.ok hclient) (ends_throw ?_)
      exact .unknown (congrArg (Option.map _) hclient)
  | some c =>
      have hstored : w.store.standing .client id = some ⟨c.owner, c.status⟩ :=
        congrArg (Option.map _) hclient
      refine ends_read_bind h (c := .client id) rfl (congrArg Except.ok hclient) ?_
      have hreread : (w.reread (w.store.reads + 1)).Reliable := h
      refine ends_mayUpdate hreread claims .client id c.owner (fun n hmay => ?_) fun n hmay => ?_
      · refine ends_refuse (fun hsame => ?_) fun hdiffers => ?_
        · exact .already hstored hmay hsame
        · have hthere : (w.reread n).store.clients.lookup id = _ := hclient
          have hanswer := ends_store (w := w.reread n) h
            (Store.answer_setClientStatus hthere status)
          have hswitched : ∀ (a : Client) (w' : World), w.Switches claims .client id status
              (.ok a) w' := fun _ _ => .switched hstored hmay hdiffers
          -- whether the caches forget the client or not, the answer is the same
          refine ends_bind_of_answer hanswer fun w' => ?_
          dsimp only
          split
          · refine ends_bind_of_answer (ends_tryCache _ _ _ _) fun _ => ?_
            refine ends_bind_of_answer (ends_tryCache _ _ _ _) fun _ => ?_
            exact ends_note_bind (ends_pure (hswitched _ _))
          · exact ends_note_bind (ends_pure (hswitched _ _))
      · exact .forbidden hstored hmay

/-- **An attempt** behind a token that is accepted. -/
theorem switches_serve (h : w.Reliable) (hbearer : w.Admits tokens token claims) {op : Operation}
    (hswitch : op.switch? = some (kind, id, status)) (htoken : op.token? = some token) :
    w.Ends (Engine.serve tokens op) (w.Switches claims kind id status) := by
  refine Operation.switch_cases (P := fun op kind id status => op.token? = some token →
    w.Ends (Engine.serve tokens op) (w.Switches claims kind id status)) ?_ ?_ ?_ ?_ hswitch htoken
  · rintro _ id ⟨⟩
    exact switches_setGroupStatus h hbearer id .enabled
  · rintro _ id ⟨⟩
    exact switches_setGroupStatus h hbearer id .disabled
  · rintro _ id ⟨⟩
    exact switches_setClientStatus h hbearer id .enabled
  · rintro _ id ⟨⟩
    exact switches_setClientStatus h hbearer id .disabled

/-- Whether nothing has changed but the count of reads and the trace. -/
def Unchanged (w w' : World) : Prop := ∃ n trace, w' = { w.reread n with trace }

/-- An attempt that is refused changes nothing. -/
theorem Switches.unchanged {e : ApiError} {w' : World}
    (h : w.Switches claims kind id status (.error e : Except ApiError α) w') : w.Unchanged w' := by
  cases h with
  | unknown | forbidden | already => exact ⟨_, w.trace, rfl⟩

/-- What an attempt is told, in the order in which it is looked for. -/
theorem Switches.told {r : Except ApiError α} {w' : World}
    (h : w.Switches claims kind id status r w') :
    (r = .error .notFound ↔ w.store.standing kind id = none) ∧
      ∀ s, w.store.standing kind id = some s →
        (r = .error .authorization ↔ ¬w.store.MayUpdate claims kind id s.owner) ∧
        (w.store.MayUpdate claims kind id s.owner →
          (r = .error .statusAlreadyAssigned ↔ s.status = status) ∧
          (s.status ≠ status → ∃ a, r = .ok a)) := by
  have hthere {s : Standing} (hstored : w.store.standing kind id = some s) :
      w.store.standing kind id ≠ none := by
    rw [hstored]
    exact nofun
  -- each outcome refutes the conditions of the other three
  cases h with
  | unknown hmissing =>
      refine ⟨iff_of_true rfl hmissing, fun s hs => ?_⟩
      cases hmissing.symm.trans hs
  | forbidden hstored hmay =>
      refine ⟨iff_of_false nofun (hthere hstored), fun s hs => ?_⟩
      cases hstored.symm.trans hs
      exact ⟨iff_of_true rfl hmay, fun hyes => absurd hyes hmay⟩
  | already hstored hmay hsame =>
      refine ⟨iff_of_false nofun (hthere hstored), fun s hs => ?_⟩
      cases hstored.symm.trans hs
      refine ⟨iff_of_false nofun (not_not.2 hmay), fun _ => ?_⟩
      exact ⟨iff_of_true rfl hsame, fun hdiffers => absurd hsame hdiffers⟩
  | switched hstored hmay hdiffers =>
      refine ⟨iff_of_false nofun (hthere hstored), fun s hs => ?_⟩
      cases hstored.symm.trans hs
      refine ⟨iff_of_false nofun (not_not.2 hmay), fun _ => ?_⟩
      exact ⟨iff_of_false nofun hdiffers, fun _ => ⟨_, rfl⟩⟩

/-- Behind a token that is not accepted nothing happens. -/
theorem ends_caller_refused (h : ¬∃ claims, w.Admits tokens token claims)
    {f : Claims → Procedure β} : w.Ends (Engine.caller tokens token >>= f) fun r w' =>
      (∃ text, r = .error (.authentication text)) ∧ w.Unchanged w' := by
  have hrefused : w.Ends (Engine.caller tokens token) fun r w' =>
      (∃ text, r = .error (.authentication text)) ∧ w.Unchanged w' := by
    refine ends_now_bind ?_
    cases hparse : tokens.parse (Timestamp.ofNanos w.clock).seconds token with
    | error e => exact ends_note_bind ⟨⟨_, rfl⟩, w.store.reads, _, rfl⟩
    | ok c =>
        dsimp only
        rw [if_neg fun hkind => h ⟨c, hparse, hkind⟩]
        exact ends_note_bind ⟨⟨_, rfl⟩, w.store.reads, _, rfl⟩
  refine ends_bind hrefused (fun e w' he => ?_) fun a w' ha => ?_
  · obtain ⟨⟨text, htext⟩, hunchanged⟩ := he
    cases htext
    exact ⟨⟨text, rfl⟩, hunchanged⟩
  · obtain ⟨⟨text, htext⟩, -⟩ := ha
    cases htext

/-- An attempt behind a token that is not accepted changes nothing. -/
theorem ends_serve_refused (h : ¬∃ claims, w.Admits tokens token claims) {op : Operation}
    (hswitch : op.switch? = some (kind, id, status)) (htoken : op.token? = some token) :
    w.Ends (Engine.serve tokens op) fun r w' =>
      (∃ text, r = .error (.authentication text)) ∧ w.Unchanged w' := by
  refine Operation.switch_cases (P := fun op _ _ _ => op.token? = some token →
    w.Ends (Engine.serve tokens op) fun r w' =>
      (∃ text, r = .error (.authentication text)) ∧ w.Unchanged w') ?_ ?_ ?_ ?_ hswitch htoken
  all_goals
    rintro _ id ⟨⟩
    exact ends_caller_refused h

end World

/-! ## New entities -/

/-- The kind and the id of an entity that a write adds. -/
def Deed.added? : Deed → Option (EntityType × String)
  | wrote (.addGroup g) _ => some (.group, g.id)
  | wrote (.addClient c) _ => some (.client, c.id)
  | _ => none

/-- The kind and the id of an entity that an operation, answered so, has created. -/
def Operation.created? : (op : Operation) → op.Answer → Option (EntityType × String)
  | createGroup _ _, (g : Group) => some (.group, g.id)
  | registerClient _ _, (c : Client) => some (.client, c.id)
  | _, _ => none

/-- What an operation has created is among the writes that are noted of it. -/
theorem Operation.exists_added {op : Operation} {a : op.Answer} {es : List Deed}
    {entity : EntityType × String} (h : op.Leaves a es) (hcreated : op.created? a = some entity) :
    ∃ d ∈ es, d.added? = some entity := by
  cases op with
  | createGroup token asked =>
      obtain ⟨-, time, rfl⟩ := h
      exact ⟨.wrote (.addGroup a) (), by simp, hcreated⟩
  | registerClient token asked =>
      obtain ⟨-, time, rfl⟩ := h
      exact ⟨.wrote (.addClient a) (), by simp, hcreated⟩
  | issue | refresh | identify | authorize | addPolicy | updatePolicy | deletePolicy | listPolicies
  | canAccessByKey | canAccessById | identifyThing | listGroups | listMemberships | enableGroup
  | disableGroup | enableClient | disableClient => cases hcreated

namespace Store

variable {s t : Store} {kind : EntityType} {id : String}

/-- What was not there before a call that took nothing away was not there at all. -/
theorem Keeps.standing_eq_none (h : s.Keeps t) (hnone : t.standing kind id = none) :
    s.standing kind id = none := by
  cases kind with
  | client =>
      refine Option.map_eq_none_iff.2 (Option.eq_none_iff_forall_not_mem.2 fun c hc => ?_)
      obtain ⟨status, time, ht⟩ := h.clients hc
      exact nomatch (Option.map_eq_none_iff.1 hnone).symm.trans ht
  | group =>
      refine Option.map_eq_none_iff.2 (Option.eq_none_iff_forall_not_mem.2 fun g hg => ?_)
      obtain ⟨status, time, ht⟩ := h.groups hg
      exact nomatch (Option.map_eq_none_iff.1 hnone).symm.trans ht

theorem hasRoom_of_answer {now : Timestamp} {c : StoreCall} {value : c.Value}
    (hsave : c.isSave = true) (h : (s.answer now c).1 = .ok value) : s.hasRoom c = true := by
  rw [← (answer_of_isSave now s hsave).1, h]
  rfl

/-- A store adds only what it does not have. -/
theorem standing_eq_none_of_added {now : Timestamp} {c : StoreCall} {value value' : c.Value}
    (h : (s.answer now c).1 = .ok value') (hadded : (Deed.wrote c value).added? = some (kind, id)) :
    s.standing kind id = none := by
  cases c with
  | addGroup g =>
      cases hadded
      have hroom := Bool.and_eq_true_iff.1 (hasRoom_of_answer (c := .addGroup g) rfl h)
      have hfree : s.groups.contains g.id = false := by simpa using hroom.1
      exact congrArg (Option.map _) (Option.not_isSome_iff_eq_none.1 (Bool.eq_false_iff.1 hfree))
  | addClient c =>
      cases hadded
      have hroom := Bool.and_eq_true_iff.1 (hasRoom_of_answer (c := .addClient c) rfl h)
      have hfree : s.clients.contains c.id = false := by simpa using hroom.1
      exact congrArg (Option.map _) (Option.not_isSome_iff_eq_none.1 (Bool.eq_false_iff.1 hfree))
  | policy | policiesOf | policyPage | addPolicy | updatePolicy | deletePolicy | client
  | clientBySecret | setClientStatus | group | groups | setGroupStatus => cases hadded

end Store

namespace World

variable {w : World} {tokens : TokenIssuer} {kind : EntityType} {id : String} {α : Type}

/-- No step takes away an entity. -/
theorem keeps_answer (w : World) (c : ServiceCall) : w.store.Keeps (w.answer c).2.store := by
  rcases w.store_of_answer c with hsame | ⟨now, c', hanswer⟩
  · rw [hsame]
    exact .refl _
  · rw [hanswer]
    exact Store.keeps_answer _ _ _

/-- What a step is noted to add was not there before. -/
theorem standing_eq_none_of_deeds {c : ServiceCall} {d : Deed} (hd : d ∈ c.deeds (w.answer c).1)
    (hadded : d.added? = some (kind, id)) : w.store.standing kind id = none := by
  cases c with
  | store c =>
      cases d with
      | wrote c' value =>
          obtain ⟨rfl, value', hreply⟩ := eq_ok_of_wrote hd
          replace hreply : (w.answerStore c').1 = .ok value' := hreply
          unfold answerStore at hreply
          split at hreply
          · cases hreply
          · exact Store.standing_eq_none_of_added hreply hadded
      | read | refused | audited => cases hadded
  | note e =>
      replace hd : d ∈ if e.isAudit then [Deed.audited e] else [] := hd
      split at hd
      · cases List.mem_singleton.1 hd
        cases hadded
      · cases hd
  | cache | journal | clock | freshId | countLookup | countCall | countRequest | countOutcome
  | counts => exact nomatch hd

/-- What a run is noted to add was not there before. -/
theorem run_adds {x : Procedure α} {Q : List Deed → Except ApiError α → Prop} (hx : x.Tells Q)
    (w : World) : ∃ es, Q es (w.run x).1 ∧
      ∀ d ∈ es, ∀ kind id, d.added? = some (kind, id) → w.store.standing kind id = none := by
  refine Program.run_tells (R := fun w es _ =>
    ∀ d ∈ es, ∀ kind id, d.added? = some (kind, id) → w.store.standing kind id = none)
    (fun _ => List.forall_mem_nil _) ?_ hx w
  intro c w es t _ hrest d hd kind id hadded
  rcases List.mem_append.1 hd with hnow | hlater
  · exact standing_eq_none_of_deeds hnow hadded
  · exact (w.keeps_answer c).standing_eq_none (hrest d hlater kind id hadded)

/-- **New entities.**  What an operation creates was not there before. -/
theorem standing_eq_none_of_created {op : Operation} {a : op.Answer}
    (hok : (w.run (Engine.serve tokens op)).1 = .ok a)
    (hcreated : op.created? a = some (kind, id)) : w.store.standing kind id = none := by
  obtain ⟨es, htold, hadds⟩ := run_adds (Engine.tells_serve tokens op) w
  rw [hok] at htold
  rcases htold with ⟨_, _, -, hr⟩ | ⟨looks, core, -, rfl, hleaves | ⟨-, _, hr⟩⟩
  · cases hr
  · obtain ⟨d, hd, hadded⟩ := Operation.exists_added hleaves hcreated
    exact hadds d (List.mem_append_right _ hd) kind id hadded
  · cases hr

end World

/-! ## What happens to a status -/

namespace Operation

/-- The status that an operation is to give to an entity. -/
def switchOf? (kind : EntityType) (id : String) (op : Operation) : Option Status :=
  op.switch?.bind fun asked => if asked.1 = kind ∧ asked.2.1 = id then some asked.2.2 else none

/-- The status that an operation that ended so has given to an entity. -/
def switched? (kind : EntityType) (id : String) (op : Operation) :
    Except ApiError op.Answer → Option Status
  | .ok _ => op.switchOf? kind id
  | .error _ => none

theorem switch?_of_switchOf? {kind : EntityType} {id : String} {op : Operation} {status : Status}
    (h : op.switchOf? kind id = some status) : op.switch? = some (kind, id, status) := by
  obtain ⟨⟨kind', id', status'⟩, hswitch, hsome⟩ := Option.bind_eq_some_iff.1 h
  dsimp only at hsome
  split at hsome
  · next hsame =>
    cases hsome
    rw [hswitch, hsame.1, hsame.2]
  · cases hsome

theorem of_switched? {kind : EntityType} {id : String} {op : Operation} {status : Status}
    {r : Except ApiError op.Answer} (h : op.switched? kind id r = some status) :
    (∃ a, r = .ok a) ∧ op.switch? = some (kind, id, status) := by
  cases r with
  | error e => cases h
  | ok a => exact ⟨⟨a, rfl⟩, switch?_of_switchOf? h⟩

theorem getD_switchOf? {op : Operation} {kind kind' : EntityType} {id id' : String}
    {status : Status} (h : op.switch? = some (kind', id', status)) (current : Status) :
    (op.switchOf? kind id).getD current =
      if kind' = kind ∧ id' = id then status else current := by
  unfold switchOf?
  rw [h, Option.bind_some]
  split <;> rfl

end Operation

namespace Store

variable {s t : Store} {op : Operation} {a : op.Answer}

theorem statusOf_of_eq (hclients : t.clients = s.clients) (hgroups : t.groups = s.groups)
    (kind : EntityType) (id : String) : t.statusOf kind id = s.statusOf kind id := by
  unfold statusOf
  rw [standing_of_eq hclients hgroups]

/-- The statuses once a client was written. -/
theorem statusOf_of_clients {id' : String} {c : Client}
    (hclients : t.clients = s.clients.insert id' c) (hgroups : t.groups = s.groups)
    (kind : EntityType) (id : String) : t.statusOf kind id =
      if EntityType.client = kind ∧ id' = id then c.status else s.statusOf kind id := by
  unfold statusOf standing
  rw [hclients, hgroups]
  cases kind with
  | client =>
      dsimp only
      rw [Table.lookup_insert]
      by_cases hid : id' = id
      · simp [hid]
      · simp [hid, Ne.symm hid]
  | group => simp

/-- The statuses once a group was written. -/
theorem statusOf_of_groups {id' : String} {g : Group}
    (hclients : t.clients = s.clients) (hgroups : t.groups = s.groups.insert id' g)
    (kind : EntityType) (id : String) : t.statusOf kind id =
      if EntityType.group = kind ∧ id' = id then g.status else s.statusOf kind id := by
  unfold statusOf standing
  rw [hclients, hgroups]
  cases kind with
  | group =>
      dsimp only
      rw [Table.lookup_insert]
      by_cases hid : id' = id
      · simp [hid]
      · simp [hid, Ne.symm hid]
  | client => simp

/-- An entity that is created has the status that it had as one that was not there. -/
theorem statusOf_of_new {kind kind' : EntityType} {id id' : String}
    (hnew : s.standing kind' id' = none) :
    (if kind' = kind ∧ id' = id then .enabled else s.statusOf kind id) = s.statusOf kind id := by
  split
  · next hsame =>
    obtain ⟨rfl, rfl⟩ := hsame
    unfold statusOf
    rw [hnew]
    rfl
  · rfl

/-- **What an operation that is answered does to a status.**  One that gives this status to this
entity does so; one that creates an entity leaves it at what it counted as; and no other changes
any. -/
theorem statusOf_of_effect (heffect : op.Effect a s t)
    (hnew : ∀ kind id, op.created? a = some (kind, id) → s.standing kind id = none)
    (kind : EntityType) (id : String) :
    t.statusOf kind id = (op.switchOf? kind id).getD (s.statusOf kind id) := by
  cases op with
  | addPolicy token p | updatePolicy token p =>
      obtain ⟨-, -, -, hclients, hgroups⟩ := heffect
      exact statusOf_of_eq hclients hgroups kind id
  | deletePolicy token key =>
      obtain ⟨-, hclients, hgroups⟩ := heffect
      exact statusOf_of_eq hclients hgroups kind id
  | createGroup token asked =>
      obtain ⟨hstatus, -, hclients, hgroups⟩ := heffect
      refine (statusOf_of_groups hclients hgroups kind id).trans ?_
      rw [hstatus]
      -- what is created is enabled, as what is not there counts
      exact statusOf_of_new (hnew _ _ rfl)
  | registerClient token asked =>
      obtain ⟨hstatus, -, hclients, hgroups⟩ := heffect
      refine (statusOf_of_clients hclients hgroups kind id).trans ?_
      rw [hstatus]
      exact statusOf_of_new (hnew _ _ rfl)
  | enableGroup token id' | disableGroup token id' =>
      obtain ⟨⟨old, time, -, rfl⟩, -, hclients, hgroups⟩ := heffect
      refine (statusOf_of_groups hclients hgroups kind id).trans ?_
      exact (Operation.getD_switchOf? rfl _).symm
  | enableClient token id' | disableClient token id' =>
      obtain ⟨⟨old, time, -, rfl⟩, -, hclients, hgroups⟩ := heffect
      refine (statusOf_of_clients hclients hgroups kind id).trans ?_
      exact (Operation.getD_switchOf? rfl _).symm
  | issue | refresh | identify | authorize | listPolicies | canAccessByKey | canAccessById
  | identifyThing | listGroups | listMemberships =>
      obtain ⟨-, hclients, hgroups⟩ := heffect
      exact statusOf_of_eq hclients hgroups kind id

end Store

/-! ## Histories -/

namespace World

variable {w : World} {tokens : TokenIssuer} {kind : EntityType} {id : String} {status : Status}

/-- **What an operation does to a status.** -/
theorem statusOf_serve (tokens : TokenIssuer) (h : w.Reliable) (op : Operation) (kind : EntityType)
    (id : String) : (w.run (Engine.serve tokens op)).2.store.statusOf kind id =
      (op.switched? kind id (w.run (Engine.serve tokens op)).1).getD
        (w.store.statusOf kind id) := by
  obtain ⟨hchanges, -⟩ := changes_serve tokens h op
  rcases hanswer : (w.run (Engine.serve tokens op)).1 with e | a
  · rw [hanswer] at hchanges
    obtain ⟨-, hclients, hgroups⟩ := hchanges
    exact Store.statusOf_of_eq hclients hgroups kind id
  · rw [hanswer] at hchanges
    exact Store.statusOf_of_effect hchanges
      (fun _ _ hcreated => standing_eq_none_of_created hanswer hcreated) kind id

/-- Whoever changes a status may do so, and the entity had the other one. -/
theorem switches_of_switched (h : w.Reliable) {op : Operation} {a : op.Answer}
    (hok : (w.run (Engine.serve tokens op)).1 = .ok a) {token : String}
    (hswitch : op.switch? = some (kind, id, status)) (htoken : op.token? = some token) :
    ∃ claims s, w.Admits tokens token claims ∧ w.store.standing kind id = some s ∧
      w.store.MayUpdate claims kind id s.owner ∧ s.status ≠ status := by
  by_cases hbearer : ∃ claims, w.Admits tokens token claims
  · obtain ⟨claims, hbearer⟩ := hbearer
    have hswitches := switches_serve h hbearer hswitch htoken
    unfold Ends at hswitches
    rw [hok] at hswitches
    cases hswitches with
    | switched hstored hmay hdiffers => exact ⟨claims, _, hbearer, hstored, hmay, hdiffers⟩
  · obtain ⟨⟨text, htext⟩, -⟩ := ends_serve_refused hbearer hswitch htoken
    cases hok.symm.trans htext

/-- The statuses that operations of a history have given to an entity, in their order. -/
def switches (tokens : TokenIssuer) (kind : EntityType) (id : String) :
    List Visit → World → List Status
  | [], _ => []
  | v :: rest, w =>
    let ran := (w.elapse v.wait).run (Engine.serve tokens v.op)
    (v.op.switched? kind id ran.1).toList ++ switches tokens kind id rest ran.2

/-- **A history.**  The statuses that are given to an entity are the other one, the one that it has,
the other one, and so on. -/
theorem switches_alternate (h : w.Reliable) (hstatus : w.store.statusOf kind id ≠ .all)
    (visits : List Visit) (i : Nat) (hi : (w.switches tokens kind id visits)[i]? = some status) :
    status = if i % 2 = 0 then (w.store.statusOf kind id).other else w.store.statusOf kind id := by
  induction visits generalizing w i with
  | nil => cases hi
  | cons v rest ih =>
      have helapsed : (w.elapse v.wait).Reliable := h
      have hran := (changes_serve tokens helapsed v.op).2
      have hnow := statusOf_serve tokens helapsed v.op kind id
      unfold switches at hi
      dsimp only at hi
      cases hswitched : v.op.switched? kind id
          ((w.elapse v.wait).run (Engine.serve tokens v.op)).1 with
      -- the visit does not give the entity a status, and leaves the one that it has
      | none =>
          rw [hswitched] at hi hnow
          replace hnow : _ = w.store.statusOf kind id := hnow
          rw [← hnow] at hstatus ⊢
          exact ih hran hstatus i hi
      -- the visit gives the status that the entity has not, and the rest goes on from there
      | some given =>
          rw [hswitched] at hi hnow
          replace hnow : _ = given := hnow
          obtain ⟨⟨a, hok⟩, hswitch⟩ := Operation.of_switched? hswitched
          obtain ⟨token, htoken⟩ := Operation.exists_token hswitch
          obtain ⟨claims, s, -, hstored, -, hdiffers⟩ :=
            switches_of_switched helapsed hok hswitch htoken
          have hs : w.store.statusOf kind id = s.status := by
            unfold Store.statusOf
            rw [show w.store.standing kind id = some s from hstored]
            rfl
          have hgiven : given = (w.store.statusOf kind id).other :=
            Status.eq_other hstatus (Operation.status_ne_all hswitch) (hs ▸ hdiffers)
          cases i with
          | zero =>
              cases hi
              exact hgiven
          | succ i =>
              have hlater := ih hran (hnow ▸ Operation.status_ne_all hswitch) i hi
              rw [hnow, hgiven, Status.other_other hstatus] at hlater
              rw [hlater]
              rcases Nat.mod_two_eq_zero_or_one i with hparity | hparity
              · rw [if_pos hparity, if_neg (by omega)]
              · rw [if_neg (by omega), if_pos (by omega)]

/-- **Statuses are changed in turn, and by those who may.**  After every history that begins with an
empty store, the statuses that were given to a group or a client are disabled, enabled, disabled,
and so on.  Whoever asks for a status next is told one of these: with a token that is not accepted,
that it is not; else, where there is no such entity, that there is none; else, whoever is neither an
admin nor its owner nor has a policy on it with the action to update it, that they may not; else, of
an entity that has this status, that it has.  None of these changes anything but the count of reads
and the trace.  In all other cases the status is given, and nobody else gives one. -/
theorem status_changes_alternate (tokens : TokenIssuer) {w₀ : World} (hreliable : w₀.Reliable)
    (hempty : w₀.store = ∅) (visits : List Visit) (kind : EntityType) (id : String) :
    (∀ i status, (w₀.switches tokens kind id visits)[i]? = some status →
      status = if i % 2 = 0 then .disabled else .enabled) ∧
    ∀ (wait : Nat) (op : Operation) (status : Status) (token : String),
      op.switch? = some (kind, id, status) → op.token? = some token →
      let w := (w₀.after tokens visits).elapse wait
      let answer := (w.run (Engine.serve tokens op)).1
      let w' := (w.run (Engine.serve tokens op)).2
      (∀ e, answer = .error e → w.Unchanged w') ∧
      ((¬∃ claims, w.Admits tokens token claims) → ∃ text, answer = .error (.authentication text)) ∧
      (∀ claims, w.Admits tokens token claims →
        (answer = .error .notFound ↔ w.store.standing kind id = none) ∧
        ∀ s, w.store.standing kind id = some s →
          (answer = .error .authorization ↔ ¬w.store.MayUpdate claims kind id s.owner) ∧
          (w.store.MayUpdate claims kind id s.owner →
            (answer = .error .statusAlreadyAssigned ↔ s.status = status) ∧
            (s.status ≠ status → ∃ a, answer = .ok a))) ∧
      ∀ a, answer = .ok a → w'.store.statusOf kind id = status ∧
        ∃ claims s, w.Admits tokens token claims ∧ w.store.standing kind id = some s ∧
          s.status ≠ status ∧ w.store.MayUpdate claims kind id s.owner := by
  refine ⟨fun i status hi => ?_, fun wait op status token hswitch htoken => ?_⟩
  -- what is not there counts as enabled, so the first status that is given disables
  · have hstart : w₀.store.statusOf kind id = .enabled := by
      rw [hempty]
      cases kind <;> rfl
    have hgiven := switches_alternate hreliable (by rw [hstart]; exact nofun) visits i hi
    rw [hstart] at hgiven
    exact hgiven
  intro w answer w'
  have hw : w.Reliable := reliable_after hreliable tokens visits
  refine ⟨fun e he => ?_, fun hno => (ends_serve_refused hno hswitch htoken).1, ?_, ?_⟩
  -- whether the token is good or not, a failure changes nothing
  · by_cases hbearer : ∃ claims, w.Admits tokens token claims
    · obtain ⟨claims, hbearer⟩ := hbearer
      have hswitches := switches_serve hw hbearer hswitch htoken
      unfold Ends at hswitches
      rw [show (w.run (Engine.serve tokens op)).1 = .error e from he] at hswitches
      exact hswitches.unchanged
    · exact (ends_serve_refused hbearer hswitch htoken).2
  · exact fun claims hbearer => (switches_serve hw hbearer hswitch htoken).told
  · intro a ha
    have hok : (w.run (Engine.serve tokens op)).1 = .ok a := ha
    obtain ⟨claims, s, hbearer, hstored, hmay, hdiffers⟩ :=
      switches_of_switched hw hok hswitch htoken
    refine ⟨?_, claims, s, hbearer, hstored, hdiffers, hmay⟩
    have hgiven := statusOf_serve tokens hw op kind id
    rw [hok] at hgiven
    refine hgiven.trans ((Operation.getD_switchOf? hswitch _).trans (if_pos ⟨rfl, rfl⟩))

/-- A room that Ann creates and disables and lets Bob enable again; Eve may not disable it. -/
def roomHistory : List Visit :=
  [⟨0, .createGroup "ann" { askedGroup "room" with status := .disabled }⟩,
   ⟨1, .disableGroup "eve" "room"⟩,
   ⟨1, .disableGroup "ann" "room"⟩,
   ⟨1, .addPolicy "ann" ⟨"", "bob", "room", ["g_update"], ⟨0, 0⟩, ⟨0, 0⟩, ""⟩⟩,
   ⟨1, .enableGroup "bob" "room"⟩]

/-- A room that Ann has created and disabled and that Bob has enabled again, with two changes so
far.  Bob is told that it is enabled if he asks for that once more, Eve may not disable it, and Bob
may. -/
theorem status_changes_alternate_room :
    let w := (empty 60000000000 0).after .named roomHistory
    let answer (op : Operation) := ((w.elapse 1).run (Engine.serve .named op)).1
    (empty 60000000000 0).switches .named .group "room" roomHistory = [.disabled, .enabled] ∧
      answer (.enableGroup "bob" "room") = .error .statusAlreadyAssigned ∧
      answer (.disableGroup "eve" "room") = .error .authorization ∧
      (∃ g, answer (.disableGroup "bob" "room") = .ok g) := by
  intro w answer
  have hreliable : (empty 60000000000 0).Reliable := fun _ => rfl
  have hasked := fun op status token =>
    (status_changes_alternate .named hreliable rfl roomHistory .group "room").2 1 op status token
  have hstored : (w.elapse 1).store.standing .group "room" = some ⟨"ann", .enabled⟩ := by
    decide +kernel
  have hbob : (w.elapse 1).Admits .named "bob" ⟨"bob", .user, "", .access, 0, 0⟩ := ⟨rfl, rfl⟩
  have heve : (w.elapse 1).Admits .named "eve" ⟨"eve", .user, "", .access, 0, 0⟩ := ⟨rfl, rfl⟩
  have hpolicy : (w.elapse 1).store.policies.lookup ⟨"bob", "room"⟩ =
      some ⟨"ann", "bob", "room", ["g_update"], .ofNanos 3, .ofNanos 3, "ann"⟩ := by
    decide +kernel
  have hnone : (w.elapse 1).store.policies.lookup ⟨"eve", "room"⟩ = none := by decide +kernel
  have hbobMay : (w.elapse 1).store.MayUpdate ⟨"bob", .user, "", .access, 0, 0⟩ .group "room"
      "ann" := Or.inr (Or.inr ⟨_, hpolicy, List.mem_singleton_self _⟩)
  have heveMay : ¬(w.elapse 1).store.MayUpdate ⟨"eve", .user, "", .access, 0, 0⟩ .group "room"
      "ann" := by
    rintro (hadmin | howner | ⟨p, hp, -⟩)
    · cases hadmin
    · exact absurd howner (by decide)
    · cases hnone.symm.trans hp
  refine ⟨by decide +kernel, ?_, ?_, ?_⟩
  · have htold := (hasked (.enableGroup "bob" "room") .enabled "bob" rfl rfl).2.2.1 _ hbob
    exact ((htold.2 _ hstored).2 hbobMay).1.2 rfl
  · have htold := (hasked (.disableGroup "eve" "room") .disabled "eve" rfl rfl).2.2.1 _ heve
    exact (htold.2 _ hstored).1.2 heveMay
  · have htold := (hasked (.disableGroup "bob" "room") .disabled "bob" rfl rfl).2.2.1 _ hbob
    exact ((htold.2 _ hstored).2 hbobMay).2 nofun

end World

end Gatehouse
