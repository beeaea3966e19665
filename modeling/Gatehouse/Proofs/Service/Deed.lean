import Gatehouse.Proofs.Program
import Gatehouse.Service.Call

/-!
# Gatehouse.Proofs.Service.Deed — what is noted of an operation

Of the steps that an operation takes, four kinds are worth a note, which is a `Deed`: a policy was
looked up, the store carried out a write, it refused one, or there was a remark on who did what.
`Procedure.Tells` says what is noted of a procedure and what it ends in, whoever answers, and that
it goes neither to the event log nor to the counts of requests and calls.

* `Idle` procedures do nothing but look.
* `Does` is said of a procedure that looks for a while and then fails or does something.

Notes are kept of as little as possible.  Reads of anything but a single policy, the caches, the
clock and the source of names leave none, so what is noted of an operation is short enough to be
written out in full; and still it determines what becomes of the tables, since nothing but writes
changes them.  That a policy was looked up is noted because of what comes after it: a creation
relies on a key that it found free, and an update on the policy that allowed it.

Only the four kinds of notes have to be told apart by later proofs.  An operation is described once
by what is noted of it, and store, log and remarks each read their part from there.
-/

namespace Gatehouse

/-! ## Deeds -/

/-- What is noted of a step. -/
inductive Deed where
  | read (key : PolicyKey) (found : Option Policy)
  | wrote (c : StoreCall) (value : c.Value)
  | refused (c : StoreCall) (e : StorageError)
  | audited (e : TraceEntry)

namespace Deed

/-- Whether a deed is no more than a look. -/
def IsRead : Deed → Prop
  | read _ _ => True
  | _ => False

/-- The remark that a deed is. -/
def audit? : Deed → Option TraceEntry
  | audited e => some e
  | _ => none

/-- What is noted of a write. -/
def ofWrite (c : StoreCall) : c.Reply → List Deed
  | .ok value => [wrote c value]
  | .error e => [refused c e]

end Deed

/-- The remarks among some deeds. -/
def audits (es : List Deed) : List TraceEntry := es.filterMap Deed.audit?

@[simp] theorem audits_append (es es' : List Deed) : audits (es ++ es') = audits es ++ audits es' :=
  List.filterMap_append

/-- Looks leave no remark on who did what. -/
theorem audits_eq_nil {es : List Deed} (h : ∀ d ∈ es, d.IsRead) : audits es = [] := by
  refine List.filterMap_eq_nil_iff.2 ?_
  intro d hd
  cases d with
  | read key found => rfl
  | wrote | refused | audited => exact False.elim (h _ hd)

/-- What is noted of a call to the store. -/
def StoreCall.deeds : (c : StoreCall) → c.Reply → List Deed
  | .policy key, .ok found => [.read key found]
  | c, reply => if c.isRead then [] else Deed.ofWrite c reply

/-- What is noted of a write is that it was carried out or refused. -/
theorem deeds_of_write {c : StoreCall} (hwrite : c.isRead = false) (reply : c.Reply) :
    c.deeds reply = Deed.ofWrite c reply := by
  cases c with
  | policy | policiesOf | policyPage | client | clientBySecret | group | groups => cases hwrite
  | addPolicy | updatePolicy | deletePolicy | addClient | setClientStatus | addGroup
  | setGroupStatus => rfl

/-- A write that is noted of a call was carried out. -/
theorem eq_ok_of_wrote {c d : StoreCall} {reply : c.Reply} {value : d.Value}
    (h : .wrote d value ∈ c.deeds reply) : d = c ∧ ∃ value', reply = .ok value' := by
  cases c with
  | policy key =>
      rcases reply with e | found
      · exact nomatch h
      · exact nomatch List.mem_singleton.1 h
  | policiesOf | policyPage | client | clientBySecret | group | groups => exact nomatch h
  | addPolicy | updatePolicy | deletePolicy | addClient | setClientStatus | addGroup
  | setGroupStatus =>
      rcases reply with e | value'
      · exact nomatch List.mem_singleton.1 h
      · exact ⟨(Deed.wrote.inj (List.mem_singleton.1 h)).1, value', rfl⟩

theorem audits_deeds (c : StoreCall) (reply : c.Reply) : audits (c.deeds reply) = [] := by
  rcases reply with e | value
  · cases c with
    | policy | policiesOf | policyPage | client | clientBySecret | group | groups | addPolicy
    | updatePolicy | deletePolicy | addClient | setClientStatus | addGroup | setGroupStatus => rfl
  · cases c with
    | policy | policiesOf | policyPage | client | clientBySecret | group | groups | addPolicy
    | updatePolicy | deletePolicy | addClient | setClientStatus | addGroup | setGroupStatus => rfl

namespace ServiceCall

/-- What is noted of a step. -/
def deeds : (c : ServiceCall) → c.Reply → List Deed
  | .store c, reply => c.deeds reply
  | .note e, _ => if e.isAudit then [.audited e] else []
  | _, _ => []

/-- Whether a step goes neither to the event log nor to the counts of requests and calls. -/
def Inward : ServiceCall → Prop
  | .journal _ | .countCall _ _ _ | .countRequest | .countOutcome _ | .counts => False
  | _ => True

end ServiceCall

/-! ## Procedures -/

namespace Procedure

variable {α β : Type} {x : Procedure α} {f : α → Procedure β}

/-- Whatever a procedure is answered, its steps are inward, and what is noted of them satisfies `Q`
together with what it ends in. -/
def Tells (x : Procedure α) (Q : List Deed → Except ApiError α → Prop) : Prop :=
  x.run.Tells ServiceCall.Inward ServiceCall.deeds Q

/-- A weaker description of the same notes. -/
theorem tells_mono {Q R : List Deed → Except ApiError α → Prop} (hx : x.Tells Q)
    (h : ∀ es r, Q es r → R es r) : x.Tells R :=
  Program.tells_mono hx h

/-- What is noted of two procedures one after the other: if the first fails, the notes of the first,
and otherwise those of both. -/
theorem tells_bind {Q : List Deed → Except ApiError α → Prop}
    {R : List Deed → Except ApiError β → Prop} (hx : x.Tells Q)
    (herror : ∀ es e, Q es (.error e) → R es (.error e))
    (hf : ∀ es a, Q es (.ok a) → (f a).Tells fun es' r => R (es ++ es') r) :
    (x >>= f).Tells R := by
  refine Program.tells_bind hx ?_
  rintro es (e | a) hes
  · show R (es ++ []) (.error e)
    rw [List.append_nil]
    exact herror es e hes
  · exact hf es a hes

section

variable {Q : List Deed → Except ApiError β → Prop}

theorem tells_now_bind {f : Time.Timestamp → Procedure β} (hf : ∀ time, (f time).Tells Q) :
    (now >>= f).Tells Q :=
  ⟨trivial, fun _ => hf _⟩

/-- A remark on who did what is noted, and what follows it is done. -/
theorem tells_note_bind {e : TraceEntry} {f : Unit → Procedure β} (haudit : e.isAudit = true)
    (hf : (f ()).Tells fun es r => Q (.audited e :: es) r) : (note e >>= f).Tells Q := by
  refine ⟨trivial, fun _ => ?_⟩
  show (f ()).Tells fun es r => Q ((if e.isAudit then _ else _) ++ es) r
  rw [if_pos haudit]
  exact hf

/-- A write is carried out, and what follows it is done, or it is refused, and nothing follows. -/
theorem tells_write_bind {c : StoreCall} {f : c.Value → Procedure β} (hwrite : c.isRead = false)
    (hrefused : ∀ e, Q [.refused c e] (.error (.ofStorage e)))
    (hf : ∀ value, (f value).Tells fun es r => Q (.wrote c value :: es) r) :
    (store c >>= f).Tells Q := by
  refine ⟨trivial, ?_⟩
  rintro (e | value)
  · show Q (c.deeds (.error e) ++ []) (.error (.ofStorage e))
    rw [deeds_of_write hwrite]
    exact hrefused e
  · show (f value).Tells fun es r => Q (c.deeds (.ok value) ++ es) r
    rw [deeds_of_write hwrite]
    exact hf value

end

/-! ## Looking -/

/-- Whether a procedure does nothing but look. -/
def Idle (x : Procedure α) : Prop := x.Tells fun es _ => ∀ d ∈ es, d.IsRead

theorem idle_pure (a : α) : (pure a : Procedure α).Idle := by
  exact List.forall_mem_nil _

theorem idle_throw (e : ApiError) : (throw e : Procedure α).Idle := by
  exact List.forall_mem_nil _

theorem idle_ofExcept {ε : Type} (convert : ε → ApiError) (r : Except ε α) :
    (ofExcept convert r).Idle := by
  exact List.forall_mem_nil _

theorem idle_step {c : ServiceCall} (hinward : c.Inward)
    (hreads : ∀ reply, ∀ d ∈ c.deeds reply, d.IsRead) : (step c).Idle := by
  refine ⟨hinward, fun reply => ?_⟩
  show ∀ d ∈ c.deeds reply ++ [], d.IsRead
  rw [List.append_nil]
  exact hreads reply

theorem deeds_of_read {c : StoreCall} (hread : c.isRead = true) (reply : c.Reply) :
    ∀ d ∈ c.deeds reply, d.IsRead := by
  cases c with
  | policy key =>
      rcases reply with e | found
      · exact fun d hd => nomatch hd
      · exact List.forall_mem_singleton.2 trivial
  | policiesOf | policyPage | client | clientBySecret | group | groups =>
      exact fun d hd => nomatch hd
  | addPolicy | updatePolicy | deletePolicy | addClient | setClientStatus | addGroup
  | setGroupStatus => cases hread

theorem idle_store {c : StoreCall} (hread : c.isRead = true) : (store c).Idle := by
  refine ⟨trivial, fun reply => ?_⟩
  show ∀ d ∈ c.deeds reply ++ [], d.IsRead
  rw [List.append_nil]
  exact deeds_of_read hread reply

theorem idle_now : now.Idle := ⟨trivial, fun _ _ hd => nomatch hd⟩

theorem idle_freshId : freshId.Idle := idle_step trivial fun _ _ hd => nomatch hd

theorem idle_cache (c : CacheCall) : (cache c).Idle := idle_step trivial fun _ _ hd => nomatch hd

/-- To look twice is to look. -/
theorem idle_bind (hx : x.Idle) (hf : ∀ a, (f a).Idle) : (x >>= f).Idle := by
  refine tells_bind hx (fun _ _ hes => hes) ?_
  intro es a hes
  refine tells_mono (hf a) ?_
  intro es' r hes'
  exact List.forall_mem_append.2 ⟨hes, hes'⟩

theorem idle_ite {c : Prop} [Decidable c] {x y : Procedure α} (hy : y.Idle)
    (hx : y.Idle → x.Idle) : (if c then x else y).Idle := by
  split
  · exact hx hy
  · exact hy

/-! ## Looking and then doing -/

/-- Some looks, and then an error or what `C` says. -/
def Eventually (C : List Deed → Except ApiError α → Prop) (es : List Deed)
    (r : Except ApiError α) : Prop :=
  ∃ looks core, (∀ d ∈ looks, d.IsRead) ∧ es = looks ++ core ∧
    (C core r ∨ core = [] ∧ ∃ e, r = .error e)

/-- Whatever a procedure is answered, it looks for a while, and then it fails or does what `C`
says. -/
def Does (x : Procedure α) (C : List Deed → Except ApiError α → Prop) : Prop :=
  x.Tells (Eventually C)

variable {C : List Deed → Except ApiError β → Prop}

theorem does_of_tells {x : Procedure β} (hx : x.Tells C) : x.Does C := by
  refine tells_mono hx ?_
  intro es r hes
  exact ⟨[], es, List.forall_mem_nil _, rfl, Or.inl hes⟩

theorem does_throw (e : ApiError) : (throw e : Procedure β).Does C :=
  ⟨[], [], List.forall_mem_nil _, rfl, Or.inr ⟨rfl, e, rfl⟩⟩

/-- To look first does not change what is done afterwards. -/
theorem does_bind (hx : x.Idle) (hf : ∀ a, (f a).Does C) : (x >>= f).Does C := by
  refine tells_bind hx ?_ ?_
  · intro es e hes
    exact ⟨es, [], hes, (List.append_nil es).symm, Or.inr ⟨rfl, e, rfl⟩⟩
  · intro es a hes
    refine tells_mono (hf a) ?_
    rintro es' r ⟨looks, core, hlooks, rfl, hcore⟩
    refine ⟨es ++ looks, core, List.forall_mem_append.2 ⟨hes, hlooks⟩, ?_, hcore⟩
    exact (List.append_assoc _ _ _).symm

/-- A procedure that only looks does what `C` says of nothing. -/
theorem does_of_idle {x : Procedure β} (hx : x.Idle) (hC : ∀ a, C [] (.ok a)) : x.Does C := by
  refine tells_mono hx ?_
  rintro es (e | a) hes
  · exact ⟨es, [], hes, (List.append_nil es).symm, Or.inr ⟨rfl, e, rfl⟩⟩
  · exact ⟨es, [], hes, (List.append_nil es).symm, Or.inl (hC a)⟩

theorem does_ite {c : Prop} [Decidable c] {x y : Procedure β} (hy : y.Does C)
    (hx : y.Does C → x.Does C) : (if c then x else y).Does C := by
  split
  · exact hx hy
  · exact hy

end Procedure

end Gatehouse
