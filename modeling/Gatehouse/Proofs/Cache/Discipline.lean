import Mathlib.Order.BooleanAlgebra.Set
import Gatehouse.Proofs.Cache.Memo
import Gatehouse.Proofs.Service.World

/-!
# Gatehouse.Proofs.Cache.Discipline — two duties of whoever uses the caches

The store and the caches change in steps of their own, so an entry may be untrue for a while.  Two
duties bound that while.

* `Settles` : whatever a program withdraws from the store it clears from the caches before it ends,
  whatever it is told.
* `Timely` : run alone in a world, a program puts an entry only while the store confirms it.

`held_of_settles` says that a program which keeps both leaves nothing in the caches that the store
does not confirm.  `ServiceCall.Plain` are the steps that neither withdraw nor put nor clear
anything; a program of plain steps keeps both duties.

The two duties differ in what they quantify over.  To settle is a property of the program alone, for
every reply that any surroundings may give, and is proved by recursion on the tree with the set of
entries that are owed as its state; this is why it survives when others take steps in between.  To
be timely is a property of a run in one world, since whether the store confirms an entry depends on
the store.

What happens at one step is said once, in `World.confirmed_or_owed` : an entry that was confirmed or
owed before a step, and is still held after it, is confirmed or owed after it.  The theorem on runs
and that on schedules are both inductions with this step.

The second half are the rules by which procedures are shown to keep the duties.  There is one for
each way in which a procedure is put together: sequencing, choice, a call to the store whose
withdrawals are owed from then on, and a remark, which changes nothing.
-/

namespace Gatehouse

open Gatehouse.Time

/-! ## What is owed -/

/-- The entries that remain to be cleared after a step, out of those that had to be before. -/
def ServiceCall.owed : (c : ServiceCall) → c.Reply → Set Memo → Set Memo
  | .store c, reply, owed => owed ∪ c.withdrawn reply
  | .cache c, _, owed => owed \ c.cleared
  | _, _, owed => owed

/-- The entry that a step puts. -/
def ServiceCall.put? : ServiceCall → Option Memo
  | .cache c => c.put?
  | _ => none

theorem ServiceCall.owed_mono (c : ServiceCall) (reply : c.Reply) {owed owed' : Set Memo}
    (h : owed ⊆ owed') : c.owed reply owed ⊆ c.owed reply owed' := by
  cases c with
  | store c => exact Set.union_subset_union_left _ h
  | cache c => exact Set.sdiff_subset_sdiff_left h
  | journal | clock | freshId | note | countLookup | countCall | countRequest | countOutcome
  | counts => exact h

/-- Whether a call to the caches looks an entry up. -/
def CacheCall.isLookup : CacheCall → Bool
  | policy _ | clientOf _ | isConnected _ => true
  | _ => false

/-- Whether a step neither withdraws an entry from the store nor puts or clears one in caches. -/
def ServiceCall.Plain : ServiceCall → Prop
  | .store (.updatePolicy _) | .store (.deletePolicy _) | .store (.setClientStatus _ _) => False
  | .cache c => c.isLookup = true
  | _ => True

theorem StoreCall.withdrawn_error (c : StoreCall) (e : StorageError) :
    c.withdrawn (.error e) = ∅ := by
  cases c with
  | policy | policiesOf | policyPage | addPolicy | updatePolicy | deletePolicy | addClient | client
  | clientBySecret | setClientStatus | addGroup | group | groups | setGroupStatus => rfl

theorem ServiceCall.owed_of_plain {c : ServiceCall} (h : c.Plain) (reply : c.Reply) :
    c.owed reply ∅ = ∅ := by
  cases c with
  | store c =>
      show ∅ ∪ c.withdrawn reply = ∅
      rw [Set.empty_union]
      cases c with
      | updatePolicy | deletePolicy | setClientStatus => exact False.elim h
      | policy | policiesOf | policyPage | addPolicy | addClient | client | clientBySecret
      | addGroup | group | groups | setGroupStatus => rfl
  | cache c => exact Set.empty_sdiff _
  | journal | clock | freshId | note | countLookup | countCall | countRequest | countOutcome
  | counts => rfl

theorem ServiceCall.put?_of_plain {c : ServiceCall} (h : c.Plain) : c.put? = none := by
  cases c with
  | cache c =>
      cases c with
      | policy | clientOf | isConnected => rfl
      | putPolicy | removePolicy | putClient | removeClient | connect | disconnect
      | disconnectAll => cases h
  | store | journal | clock | freshId | note | countLookup | countCall | countRequest
  | countOutcome | counts => rfl

/-- A call does not put what it clears. -/
theorem CacheCall.not_mem_cleared_of_put {c : CacheCall} {m : Memo} (h : c.put? = some m) :
    m ∉ c.cleared := by
  cases c with
  | putPolicy | putClient =>
      cases h
      exact fun hclears => hclears.2 rfl
  | connect c =>
      cases h
      exact fun hno => hno
  | policy | removePolicy | clientOf | removeClient | isConnected | disconnect
  | disconnectAll => cases h

namespace World

variable {w : World} {m : Memo} {owed : Set Memo}

/-- What is held after a step was put by it or held before. -/
theorem holds_before (h : w.Sound) {c : ServiceCall} (hheld : (w.answer c).2.caches.Holds m) :
    c.put? = some m ∨ w.caches.Holds m := by
  revert hheld
  refine answer_cases h (P := fun c _ w' => w'.caches.Holds m → c.put? = some m ∨ w.caches.Holds m)
    ?_ ?_ ?_ c
  · exact fun _ hheld => Or.inr hheld
  · intro c hheld
    rcases Caches.holds_answer hheld with hput | ⟨hbefore, -⟩
    · exact Or.inl hput
    · exact Or.inr hbefore
  · intro c reply w' _ _ hcaches _ _ hheld
    rw [hcaches] at hheld
    exact Or.inr hheld

/-- **One step.**  What is confirmed or owed, and still held after a step, is confirmed or owed
after it. -/
theorem confirmed_or_owed (h : w.Sound) {c : ServiceCall}
    (hbefore : w.store.Confirms m ∨ m ∈ owed) (hheld : (w.answer c).2.caches.Holds m) :
    (w.answer c).2.store.Confirms m ∨ m ∈ c.owed (w.answer c).1 owed := by
  revert hheld
  refine answer_cases h (P := fun c reply w' => w'.caches.Holds m →
    w'.store.Confirms m ∨ m ∈ c.owed reply owed) ?_ ?_ ?_ c
  · intro c _
    rcases hbefore with hconfirmed | howed
    · rcases Store.confirms_answer (c := c) hconfirmed with hstill | hwithdrawn
      · exact Or.inl hstill
      · exact Or.inr (Or.inr hwithdrawn)
    · exact Or.inr (Or.inl howed)
  · intro c hheld
    -- an entry that is still held was not cleared, so what was owed is owed still
    have hkept : m ∉ c.cleared := by
      rcases Caches.holds_answer hheld with hput | ⟨-, hkept⟩
      · exact CacheCall.not_mem_cleared_of_put hput
      · exact hkept
    exact hbefore.imp_right fun howed => ⟨howed, hkept⟩
  · intro c reply w' haside hstore _ _ _ _
    rw [hstore]
    refine hbefore.imp_right ?_
    intro howed
    cases c with
    | store | cache => exact False.elim haside
    | journal | clock | freshId | note | countLookup | countCall | countRequest | countOutcome
    | counts => exact howed

end World

/-! ## The duties of a program -/

namespace Program

variable {α β : Type}

/-- Whether a program that has some entries to clear has cleared them when it ends, and whatever it
withdraws on the way. -/
def Settles : Program service α → Set Memo → Prop
  | .done _, owed => owed = ∅
  | .ask c next, owed => ∀ reply, (next reply).Settles (ServiceCall.owed c reply owed)

/-- Whether a program that runs alone puts an entry only while the store confirms it. -/
def Timely : Program service α → World → Prop
  | .done _, _ => True
  | .ask c next, w =>
    (∀ m, ServiceCall.put? c = some m → (w.answer c).2.store.Confirms m) ∧
      (next (w.answer c).1).Timely (w.answer c).2

theorem settles_mono {p : Program service α} {owed owed' : Set Memo} (h : owed ⊆ owed')
    (hp : p.Settles owed') : p.Settles owed := by
  induction p generalizing owed owed' with
  | done a => exact Set.subset_eq_empty h hp
  | ask c next ih => exact fun reply => ih reply (ServiceCall.owed_mono c reply h) (hp reply)

theorem settles_bind {p : Program service α} {f : α → Program service β} {owed : Set Memo}
    (hp : p.Settles owed) (hf : ∀ a, (f a).Settles ∅) : (p.bind f).Settles owed := by
  induction p generalizing owed with
  | done a =>
      obtain rfl : owed = ∅ := hp
      exact hf a
  | ask c next ih => exact fun reply => ih reply (hp reply)

theorem timely_bind {p : Program service α} {f : α → Program service β} {w : World}
    (hp : p.Timely w) (hf : (f (p.run World.answer w).1).Timely (p.run World.answer w).2) :
    (p.bind f).Timely w := by
  induction p generalizing w with
  | done a => exact hf
  | ask c next ih => exact ⟨hp.1, ih _ hp.2 hf⟩

/-- **A run alone.**  A program that settles what it owes and is timely leaves every entry that is
held confirmed. -/
theorem held_of_settles {p : Program service α} {owed : Set Memo} {w : World} (hsound : w.Sound)
    (hsettles : p.Settles owed) (htimely : p.Timely w)
    (h : ∀ m, w.caches.Holds m → w.store.Confirms m ∨ m ∈ owed) :
    ∀ m, (p.run World.answer w).2.caches.Holds m →
      (p.run World.answer w).2.store.Confirms m := by
  induction p generalizing owed w with
  | done a =>
      intro m hheld
      obtain rfl : owed = ∅ := hsettles
      exact (h m hheld).resolve_right fun hno => hno
  | ask c next ih =>
      refine ih _ (hsound.answer c) (hsettles _) htimely.2 ?_
      intro m hheld
      -- what is put now is confirmed now; what was there before is carried over the step
      rcases World.holds_before hsound hheld with hput | hbefore
      · exact Or.inl (htimely.1 m hput)
      · exact World.confirmed_or_owed hsound (h m hbefore) hheld

/-! ## Plain steps -/

theorem settles_of_plain {p : Program service α} (h : p.Asks ServiceCall.Plain) :
    p.Settles ∅ := by
  induction p with
  | done a => rfl
  | ask c next ih =>
      intro reply
      have hnone : ServiceCall.owed c reply ∅ = ∅ := ServiceCall.owed_of_plain h.1 reply
      rw [hnone]
      exact ih reply (h.2 reply)

theorem timely_of_plain {p : Program service α} (h : p.Asks ServiceCall.Plain) (w : World) :
    p.Timely w := by
  induction p generalizing w with
  | done a => trivial
  | ask c next ih =>
      refine ⟨?_, ih _ (h.2 _) _⟩
      intro m hput
      cases (ServiceCall.put?_of_plain h.1).symm.trans hput

end Program

/-! ## Procedures -/

namespace Procedure

variable {α β : Type} {x : Procedure α} {f : α → Procedure β} {owed : Set Memo}
  {w : World}

/-- Whether every step of a procedure is plain: it may read the store, add to it and look entries
up. -/
def Plain (x : Procedure α) : Prop := x.run.Asks ServiceCall.Plain

/-- Whether a procedure clears what is owed and what it withdraws. -/
def Settles (x : Procedure α) (owed : Set Memo) : Prop := x.run.Settles owed

/-- Whether a procedure that runs alone in a world puts an entry only while the store confirms
it. -/
def TimelyIn (x : Procedure α) (w : World) : Prop := x.run.Timely w

/-- Whether a procedure is timely in every sound world. -/
def Timely (x : Procedure α) : Prop := ∀ w, w.Sound → x.TimelyIn w

theorem plain_pure (a : α) : (pure a : Procedure α).Plain := trivial

theorem plain_throw (e : ApiError) : (throw e : Procedure α).Plain := trivial

theorem plain_ofExcept {ε : Type} (convert : ε → ApiError) (r : Except ε α) :
    (ofExcept convert r).Plain := trivial

theorem plain_step {c : ServiceCall} (h : c.Plain) : (step c).Plain := ⟨h, fun _ => trivial⟩

theorem plain_store {c : StoreCall} (h : (ServiceCall.store c).Plain) : (store c).Plain :=
  ⟨h, fun _ => trivial⟩

theorem plain_note (e : TraceEntry) : (note e).Plain := plain_step trivial

theorem plain_now : now.Plain := ⟨trivial, fun _ => trivial⟩

theorem plain_freshId : freshId.Plain := plain_step trivial

theorem plain_bind (hx : x.Plain) (hf : ∀ a, (f a).Plain) : (x >>= f).Plain := by
  refine Program.asks_bind hx ?_
  rintro (e | a)
  · trivial
  · exact hf a

/-- What follows a choice is often reached through both of its branches. -/
theorem plain_ite {c : Prop} [Decidable c] {x y : Procedure α} (hy : y.Plain)
    (hx : y.Plain → x.Plain) : (if c then x else y).Plain := by
  split
  · exact hx hy
  · exact hy

theorem settles_of_plain (h : x.Plain) : x.Settles ∅ := Program.settles_of_plain h

theorem timely_of_plain (h : x.Plain) : x.Timely := fun w _ => Program.timely_of_plain h w

theorem settles_bind (hx : x.Settles owed) (hf : ∀ a, (f a).Settles ∅) :
    (x >>= f).Settles owed := by
  refine Program.settles_bind hx ?_
  rintro (e | a)
  · rfl
  · exact hf a

/-- What a call to the store withdraws is owed from then on; a call that fails withdraws nothing. -/
theorem settles_store_bind {c : StoreCall} {f : c.Value → Procedure β}
    (hf : ∀ a, (f a).Settles (c.withdrawn (.ok a))) : (store c >>= f).Settles ∅ := by
  rintro (e | a)
  -- the procedure ends here, so nothing may be owed
  · show ∅ ∪ c.withdrawn (.error e) = ∅
    rw [StoreCall.withdrawn_error, Set.union_empty]
  · show (f a).run.Settles (∅ ∪ c.withdrawn (.ok a))
    rw [Set.empty_union]
    exact hf a

theorem settles_note {e : TraceEntry} (h : owed = ∅) : (note e).Settles owed := fun _ => h

theorem settles_note_bind {e : TraceEntry} {f : Unit → Procedure β} (hf : (f ()).Settles owed) :
    (note e >>= f).Settles owed :=
  fun _ => hf

theorem settles_ite {c : Prop} [Decidable c] {x y : Procedure α} (hy : y.Settles owed)
    (hx : y.Settles owed → x.Settles owed) : (if c then x else y).Settles owed := by
  split
  · exact hx hy
  · exact hy

theorem settles_ite_bind {c : Prop} [Decidable c] {x y : Procedure α} (hx : x.Settles owed)
    (hy : y.Settles owed) (hf : ∀ a, (f a).Settles ∅) :
    (if c then x >>= f else y >>= f).Settles owed := by
  split
  · exact settles_bind hx hf
  · exact settles_bind hy hf

theorem timely_store (c : StoreCall) : (store c).Timely := by
  intro w _
  refine ⟨?_, trivial⟩
  intro m hput
  cases hput

theorem timelyIn_bind (hx : x.TimelyIn w)
    (hf : ∀ a w', w.run x = (.ok a, w') → (f a).TimelyIn w') : (x >>= f).TimelyIn w := by
  refine Program.timely_bind hx ?_
  show (ExceptT.bindCont f (w.run x).1).Timely (w.run x).2
  rcases hrun : w.run x with ⟨e | a, w'⟩
  · trivial
  · exact hf a w' hrun

theorem timelyIn_ite {c : Prop} [Decidable c] {x y : Procedure α} (hy : ¬c → y.TimelyIn w)
    (hx : c → x.TimelyIn w) : (if c then x else y).TimelyIn w := by
  split
  · next h => exact hx h
  · next h => exact hy h

theorem timely_bind (hx : x.Timely) (hf : ∀ a, (f a).Timely) : (x >>= f).Timely := by
  intro w hw
  refine timelyIn_bind (hx w hw) ?_
  intro a w' hrun
  exact hf a w' (hw.of_run hrun)

theorem timely_ite_bind {c : Prop} [Decidable c] {x y : Procedure α} (hx : x.Timely)
    (hy : y.Timely) (hf : ∀ a, (f a).Timely) : (if c then x >>= f else y >>= f).Timely := by
  split
  · exact timely_bind hx hf
  · exact timely_bind hy hf

theorem timely_ite {c : Prop} [Decidable c] {x y : Procedure α} (hy : y.Timely)
    (hx : y.Timely → x.Timely) : (if c then x else y).Timely := by
  split
  · exact hx hy
  · exact hy

end Procedure

end Gatehouse
