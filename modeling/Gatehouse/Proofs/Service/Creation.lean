import Gatehouse.Proofs.Service.Failure

/-!
# Gatehouse.Proofs.Service.Creation — what a creation that fails leaves behind

A group or a client is created by three calls to the store: the key of its owner's policy is looked
up, the entity is written, and that policy is written.  They are no transaction.  Here the store is
one that others use at the same time: a `Contest` is a world in which, before every call, time may
pass and others may put calls of their own, and in which any call may fail.

`Backing.remembering` keeps what a store was asked and what it answered, and `run_forget` says that
nothing else changes by that.

`leaves_iff_refused` is the main result.  If a creation ends in an error, the entity is all that it
can have written, never the policy; what it has written is still there; and it has written something
exactly if the store refused the policy of the owner.  That happens when somebody else takes the key
between the look-up and the write (`client_left_behind`), and when the store fails at the last call
(`group_left_behind`).

The look-up is there to keep this from happening, and by itself it does: if nobody else is at work
and no call fails, a key that is free when it is looked up is free when the policy is written.  What
it cannot do is to hold the key until then.

That an entity is still there at the end is not said by the deeds of the operation, which do not say
what others did after it.  It holds because no call of a store removes an entity
(`Store.has_answer`), whoever puts it.
-/

namespace Gatehouse

open Gatehouse.Time

/-! ## Stores that others use -/

/-- What happens before a call to the store: time passes, others put calls of their own, and the
call itself may be bound to fail. -/
structure Moment where
  wait : Nat
  others : List StoreCall
  fails : Bool

/-- The moment in which nothing happens. -/
def Moment.quiet : Moment := ⟨0, [], false⟩

/-- The world after a moment. -/
def World.pass (w : World) (m : Moment) : World :=
  m.others.foldl (fun w c => (w.answerStore c).2) (w.elapse m.wait)

/-- A world, and what is to happen in it before each of the next calls to the store. -/
structure Contest where
  world : World
  ahead : List Moment

/-- The answer of a store that others use. -/
def Contest.answerStore (c : StoreCall) (k : Contest) : c.Reply × Contest :=
  match k.ahead with
  | [] =>
    let (reply, world) := k.world.answerStore c
    (reply, ⟨world, []⟩)
  | m :: ahead =>
    if m.fails then (.error (.internal (World.faultText c.name)), ⟨k.world.pass m, ahead⟩)
    else
      let (reply, world) := (k.world.pass m).answerStore c
      (reply, ⟨world, ahead⟩)

namespace Backing

variable {κ : Type}

/-- The store, the caches, the clock and the names of a contest. -/
def contested : Backing Contest where
  store c k := k.answerStore c
  cache c k :=
    let (reply, world) := k.world.answerCache c
    (reply, { k with world })
  clock k := k.world.clock
  freshId k := (freshName k.world.ids, { k with world := { k.world with ids := k.world.ids + 1 } })

/-- A backing that also keeps what its store was asked and what it answered. -/
def remembering (B : Backing κ) : Backing (κ × List Deed) where
  store c k :=
    let (reply, next) := B.store c k.1
    (reply, next, k.2 ++ c.deeds reply)
  cache c k :=
    let (reply, next) := B.cache c k.1
    (reply, next, k.2)
  clock k := B.clock k.1
  freshId k :=
    let (name, next) := B.freshId k.1
    (name, next, k.2)

end Backing

namespace Site

variable {κ ℓ : Type} {B : Backing κ} {L : EventLog ℓ}

/-- The site without what was kept. -/
def forget (s : Site (κ × List Deed) ℓ) : Site κ ℓ :=
  ⟨s.backing.1, s.outbox, s.metrics, s.trace⟩

theorem answer_forget (c : ServiceCall) (s : Site (κ × List Deed) ℓ) :
    s.forget.answer B L c =
      ((s.answer B.remembering L c).1, (s.answer B.remembering L c).2.forget) := by
  cases c with
  | journal c =>
      cases c with
      | probe | append | push | pop | note => rfl
  | store | cache | clock | freshId | note | countLookup | countCall | countRequest | countOutcome
  | counts => rfl

/-- To keep what a store was asked changes nothing else. -/
theorem run_forget {α : Type} (x : Procedure α) (s : Site (κ × List Deed) ℓ) :
    s.forget.run B L x =
      ((s.run B.remembering L x).1, (s.run B.remembering L x).2.forget) :=
  Program.run_map answer_forget x.run s

end Site

/-! ## Entities stay -/

namespace Store

/-- Whether the entity that a call adds, if it adds one, is in the store. -/
def Has (s : Store) : StoreCall → Prop
  | .addGroup g => s.groups.contains g.id = true
  | .addClient c => s.clients.contains c.id = true
  | _ => True

variable {s t : Store}

/-- **No call removes an entity.** -/
theorem has_answer (now : Timestamp) (c : StoreCall) {d : StoreCall} (h : s.Has d) :
    (s.answer now c).2.Has d := by
  rcases hanswer : s.answer now c with ⟨e | value, t⟩
  -- a call that is refused leaves the store, and no call removes an entity
  · have herror := answer_error now c s (congrArg Prod.fst hanswer)
    rw [hanswer] at herror
    obtain rfl : t = s := herror
    exact h
  · have hcarried := carried_of_answer hanswer
    show t.Has d
    cases c with
    | addPolicy p =>
        obtain ⟨-, rfl⟩ := hcarried
        exact h
    | updatePolicy | deletePolicy | policy | policiesOf | policyPage | client | clientBySecret
    | group | groups =>
        obtain rfl := hcarried
        exact h
    | addClient c =>
        obtain rfl := hcarried
        cases d with
        | addClient d => exact Table.contains_insert_iff.2 (Or.inr h)
        | _ => exact h
    | addGroup g =>
        obtain rfl := hcarried
        cases d with
        | addGroup d => exact Table.contains_insert_iff.2 (Or.inr h)
        | _ => exact h
    | setClientStatus id status =>
        obtain ⟨-, rfl⟩ := hcarried
        cases d with
        | addClient d => exact Table.contains_insert_iff.2 (Or.inr h)
        | _ => exact h
    | setGroupStatus id status =>
        obtain ⟨-, rfl⟩ := hcarried
        cases d with
        | addGroup d => exact Table.contains_insert_iff.2 (Or.inr h)
        | _ => exact h

/-- A call that is carried out adds its entity. -/
theorem has_of_answer {now : Timestamp} {c : StoreCall} {value : c.Value}
    (h : (s.answer now c).1 = .ok value) : (s.answer now c).2.Has c := by
  rcases hanswer : s.answer now c with ⟨e | value', t⟩
  · rw [hanswer] at h
    cases h
  · have hcarried := carried_of_answer hanswer
    cases c with
    | addClient c =>
        obtain rfl := hcarried
        exact Table.contains_insert_iff.2 (Or.inl rfl)
    | addGroup g =>
        obtain rfl := hcarried
        exact Table.contains_insert_iff.2 (Or.inl rfl)
    | _ => trivial

end Store

namespace World

variable {w : World} {c d : StoreCall}

theorem has_answerStore (h : w.store.Has d) : (w.answerStore c).2.store.Has d := by
  unfold answerStore
  split
  · exact h
  · exact Store.has_answer _ c h

theorem has_of_answerStore {value : c.Value} (h : (w.answerStore c).1 = .ok value) :
    (w.answerStore c).2.store.Has c := by
  unfold answerStore at h ⊢
  split at h
  · cases h
  · next hfault =>
    rw [if_neg hfault]
    exact Store.has_of_answer h

/-- No moment removes an entity, whatever others do in it. -/
theorem has_pass (m : Moment) (h : w.store.Has d) : (w.pass m).store.Has d := by
  unfold pass
  have helapsed : (w.elapse m.wait).store.Has d := h
  generalize w.elapse m.wait = w' at helapsed
  induction m.others generalizing w' with
  | nil => exact helapsed
  | cons c others ih => exact ih _ (has_answerStore helapsed)

end World

namespace Contest

variable {k : Contest} {c d : StoreCall}

theorem has_answerStore (h : k.world.store.Has d) : (k.answerStore c).2.world.store.Has d := by
  unfold answerStore
  split
  · exact World.has_answerStore h
  · next m ahead _ =>
    split
    · exact World.has_pass m h
    · exact World.has_answerStore (World.has_pass m h)

theorem has_of_answerStore {value : c.Value} (h : (k.answerStore c).1 = .ok value) :
    (k.answerStore c).2.world.store.Has c := by
  unfold answerStore at h ⊢
  split
  · next hahead =>
    rw [hahead] at h
    exact World.has_of_answerStore h
  · next m ahead hahead =>
    rw [hahead] at h
    dsimp only at h ⊢
    split at h
    · cases h
    · next hfails =>
      rw [if_neg hfails]
      exact World.has_of_answerStore h

end Contest

/-! ## What is kept of a run -/

/-- What leads from one contest to another with some deeds: those of the store are kept, every
entity that was there stays there, and every entity that was written is there. -/
structure Recounts (k : Contest × List Deed) (es : List Deed) (k' : Contest × List Deed) :
    Prop where
  kept : ∀ d : Deed, d.audit? = none → (d ∈ k'.2 ↔ d ∈ k.2 ∨ d ∈ es)
  stays : ∀ c, k.1.world.store.Has c → k'.1.world.store.Has c
  there : ∀ c value, .wrote c value ∈ es → k'.1.world.store.Has c

namespace Recounts

variable {k k' : Contest × List Deed} {es : List Deed}

theorem nil (k : Contest × List Deed) : Recounts k [] k where
  kept _ _ := ⟨Or.inl, fun h => h.resolve_right (List.not_mem_nil)⟩
  stays _ h := h
  there _ _ h := nomatch h

theorem store {c : StoreCall} (h : Recounts (Backing.contested.remembering.store c k).2 es k') :
    Recounts k (c.deeds (Backing.contested.remembering.store c k).1 ++ es) k' where
  kept d hd := by
    rw [h.kept d hd, List.mem_append, ← or_assoc]
    exact or_congr_left List.mem_append
  stays d hd := h.stays d (Contest.has_answerStore hd)
  there d value hd := by
    rcases List.mem_append.1 hd with hd | hd
    -- the entity is there right after the call, and nobody removes it later
    · obtain ⟨rfl, value', hvalue⟩ := eq_ok_of_wrote hd
      exact h.stays _ (Contest.has_of_answerStore hvalue)
    · exact h.there d value hd

theorem cache {c : CacheCall} (h : Recounts (Backing.contested.remembering.cache c k).2 es k') :
    Recounts k es k' where
  kept := h.kept
  stays d hd := by
    refine h.stays d ?_
    show (k.1.world.answerCache c).2.store.Has d
    rw [(k.1.world.answerCache_keeps c).1]
    exact hd
  there := h.there

theorem freshId (h : Recounts (Backing.contested.remembering.freshId k).2 es k') :
    Recounts k es k' := ⟨h.kept, h.stays, h.there⟩

theorem audited (e : TraceEntry) (h : Recounts k es k') : Recounts k (.audited e :: es) k' where
  kept d hd := by
    rw [h.kept d hd, List.mem_cons]
    refine or_congr_right ⟨Or.inr, ?_⟩
    rintro (rfl | hmem)
    · cases hd
    · exact hmem
  stays := h.stays
  there d value hd := by
    rcases List.mem_cons.1 hd with hd | hd
    · cases hd
    · exact h.there d value hd

end Recounts

/-! ## Creations -/

namespace Operation

open Engine

/-- Whether an operation creates an entity. -/
def Creates (op : Operation) : Prop :=
  (∃ token g, op = .createGroup token g) ∨ ∃ token c, op = .registerClient token c

/-- Whether a call adds the entity that an operation is to create. -/
def Entity : Operation → StoreCall → Prop
  | createGroup _ g, .addGroup g' => g.id = "" ∨ g'.id = g.id
  | registerClient _ c, .addClient c' => c.id = "" ∨ c'.id = c.id
  | _, _ => False

/-- What the deeds of a creation that failed say of what it left behind: nothing but the entity was
written, and that exactly if the policy of the owner was refused. -/
structure LeftBehind (op : Operation) (es : List Deed) : Prop where
  entity : ∀ c value, .wrote c value ∈ es → op.Entity c
  iff_refused : (∃ c value, .wrote c value ∈ es) ↔ ∃ p e, .refused (.addPolicy p) e ∈ es

variable {op : Operation} {es : List Deed}

/-- A creation that was stuck has written its entity and was refused the policy, or has written
nothing. -/
theorem leftBehind_of_stuck {entity : StoreCall} {key : PolicyKey} (h : Stuck entity key es)
    (hentity : op.Entity entity) (hpolicy : ∀ p, entity ≠ .addPolicy p) : op.LeftBehind es := by
  cases h with
  | entity e =>
      refine ⟨by simp, ?_⟩
      simp only [List.mem_cons, List.not_mem_nil, or_false, reduceCtorEq, false_or, exists_false,
        false_iff, not_exists]
      intro p e' heq
      exact hpolicy p (Deed.refused.inj heq).1.symm
  | policy value p e hkey =>
      constructor
      · intro c value' hmem
        have heq : Deed.wrote c value' = .wrote entity value := by simpa using hmem
        rw [(Deed.wrote.inj heq).1]
        exact hentity
      · exact ⟨fun _ => ⟨p, e, by simp⟩, fun _ => ⟨entity, value, by simp⟩⟩

/-- A creation that ended in an error has left behind what its deeds say: what it only looked at
does not count, and what it did after that was to be stuck. -/
theorem leftBehind_of_failed (hop : op.Creates) {e : ApiError} (h : op.Told es (.error e)) :
    op.LeftBehind es := by
  rcases h with ⟨reason, e', rfl, -⟩ | ⟨looks, core, hlooks, rfl, hcore⟩
  · exact ⟨by simp, by simp⟩
  · -- writes and refusals are no looks, so only what follows the looks counts
    have hlooked : ∀ d ∈ looks ++ core, ¬d.IsRead → d ∈ core := by
      intro d hd hread
      exact (List.mem_append.1 hd).resolve_left fun hlook => hread (hlooks d hlook)
    have hcoreLeft : op.LeftBehind core := by
      rcases hcore with hbreaks | ⟨rfl, -⟩
      · rcases hop with ⟨token, g, rfl⟩ | ⟨token, c, rfl⟩
        · obtain ⟨g', hid, hstuck⟩ := hbreaks
          exact leftBehind_of_stuck hstuck hid fun p => nofun
        · obtain ⟨c', hid, hstuck⟩ := hbreaks
          exact leftBehind_of_stuck hstuck hid fun p => nofun
      · exact ⟨by simp, by simp⟩
    constructor
    · intro c value hmem
      exact hcoreLeft.entity c value (hlooked _ hmem id)
    · constructor
      · rintro ⟨c, value, hmem⟩
        obtain ⟨p, e', hrefused⟩ := hcoreLeft.iff_refused.1 ⟨c, value, hlooked _ hmem id⟩
        exact ⟨p, e', List.mem_append_right _ hrefused⟩
      · rintro ⟨p, e', hmem⟩
        obtain ⟨c, value, hwrote⟩ := hcoreLeft.iff_refused.2 ⟨p, e', hlooked _ hmem id⟩
        exact ⟨c, value, List.mem_append_right _ hwrote⟩

end Operation

namespace Site

variable {ℓ : Type} (tokens : TokenIssuer)

/-- **What a creation that fails leaves behind**, whatever others do to the store between its calls
and whichever calls fail: nothing, unless the store refused the policy of the owner; then the
entity, which is still there, and nothing else. -/
theorem leaves_iff_refused (L : EventLog ℓ) {op : Operation} (hop : op.Creates)
    {s : Site (Contest × List Deed) ℓ} (hs : s.backing.2 = []) {e : ApiError}
    (h : (s.run Backing.contested.remembering L (Engine.serve tokens op)).1 = .error e) :
    let left := (s.run Backing.contested.remembering L (Engine.serve tokens op)).2.backing
    (∀ c value, .wrote c value ∈ left.2 → op.Entity c ∧ left.1.world.store.Has c) ∧
      ((∃ c value, .wrote c value ∈ left.2) ↔ ∃ p e', .refused (.addPolicy p) e' ∈ left.2) := by
  obtain ⟨es, htold, hrecounts, -⟩ := run_tells (B := Backing.contested.remembering) (L := L)
    (R := Recounts) .nil (fun _ _ _ _ => .store) (fun _ _ _ _ => .cache) (fun _ _ _ => .freshId)
    (fun e _ _ _ => .audited e) (Engine.tells_serve tokens op) s
  rw [h] at htold
  have hleft := Operation.leftBehind_of_failed hop htold
  -- what the backing remembers is what was done, but for the audit trail
  have hkept : ∀ d : Deed, d.audit? = none → (d ∈ (s.run Backing.contested.remembering L
      (Engine.serve tokens op)).2.backing.2 ↔ d ∈ es) := by
    intro d hd
    rw [hrecounts.kept d hd, hs]
    exact or_iff_right List.not_mem_nil
  constructor
  · intro c value hmem
    have hwrote := (hkept _ rfl).1 hmem
    exact ⟨hleft.entity c value hwrote, hrecounts.there c value hwrote⟩
  · refine Iff.trans ?_ (hleft.iff_refused.trans ?_)
    · exact exists_congr fun c => exists_congr fun value => hkept _ rfl
    · exact exists_congr fun p => exists_congr fun e' => (hkept _ rfl).symm

/-- A client whose id and secret are given. -/
def meter : Client := ⟨"meter", "", "", "secret", .enabled, ⟨0, 0⟩, ⟨0, 0⟩⟩

/-- Somebody else grants the owner of a meter an action on it, which takes the key of the policy
that the owner would get. -/
def grantToOwner : Policy := ⟨"admin", "owner", "meter", ["c_list"], ⟨0, 0⟩, ⟨0, 0⟩, "admin"⟩

/-- The key is free when it is looked up and taken when the policy is written. -/
def contestedKey : Site (Contest × List Deed) MemoryLog :=
  fresh (⟨.empty 60000000000 0, [.quiet, .quiet, ⟨0, [.addPolicy grantToOwner], false⟩]⟩, []) .empty

/-- The client stays behind.  The key of its owner's policy was free when it was looked up, and
somebody else had taken it when the policy was to be written. -/
theorem client_left_behind :
    let t := contestedKey.run Backing.contested.remembering MemoryLog.eventLog
      (Engine.serve .named (.registerClient "owner" meter))
    t.1 = .error (.conflict "owner@meter") ∧
      (∃ c value, .wrote c value ∈ t.2.backing.2 ∧ t.2.backing.1.world.store.Has c) ∧
      t.2.backing.1.world.store.clients.contains "meter" = true := by
  obtain ⟨hleft, hiff⟩ := leaves_iff_refused .named MemoryLog.eventLog (s := contestedKey)
    (e := .conflict "owner@meter") (Or.inr ⟨"owner", meter, rfl⟩) rfl rfl
  have hrefused : .refused (.addPolicy (Engine.ownerPolicy ⟨0, 0⟩ "owner" "meter" clientActions))
      (.conflict "owner@meter") ∈ (contestedKey.run Backing.contested.remembering
        MemoryLog.eventLog (Engine.serve .named (.registerClient "owner" meter))).2.backing.2 :=
    .tail _ (.tail _ (.head _))
  obtain ⟨c, value, hwrote⟩ := hiff.2 ⟨_, _, hrefused⟩
  exact ⟨rfl, ⟨c, value, hwrote, (hleft c value hwrote).2⟩, rfl⟩

/-- A group whose id is given. -/
def room : Group := ⟨"room", "", "", "", none, .enabled, ⟨0, 0⟩, ⟨0, 0⟩, 0, ""⟩

/-- The store takes the group and fails at the policy of its owner.  The group stays behind, and
because of it the same request is refused when the store works again. -/
theorem group_left_behind :
    let s : Site (Contest × List Deed) MemoryLog := fresh
      (⟨{ World.empty 60000000000 0 with faults := ["save"] }, []⟩, []) .empty
    let create := Engine.serve .named (.createGroup "owner" room)
    let t := s.run Backing.contested.remembering MemoryLog.eventLog create
    t.1 = .error (.storage "save failed") ∧
      t.2.backing.2 = [.read ⟨"owner", "room"⟩ none,
        .wrote (.addGroup { room with owner := "owner" }) (),
        .refused (.addPolicy (Engine.ownerPolicy ⟨0, 0⟩ "owner" "room" groupActions))
          (.internal "save failed")] ∧
      t.2.backing.1.world.store.groups.contains "room" = true ∧
      ({ t.2.backing.1.world with faults := [] }.run create).1 =
        .error (.conflict "group room") := by
  exact ⟨rfl, rfl, rfl, rfl⟩

end Site

end Gatehouse
