import Gatehouse.Proofs.Journal.Conservation
import Gatehouse.Proofs.Service.Engine
import Gatehouse.Proofs.Service.Site
import Gatehouse.Service.Layer

/-!
# Gatehouse.Proofs.Service.Layer — what the layers add

Around the engine stand three layers, and none of them changes an answer.  What they leave behind is
one record and one remark for every change, one remark for every credential that is refused, and the
counts of calls.  All of this holds over any backing and before any event log.

* `run_journaled`, `run_logged`, `run_measured` : what each layer adds to a run of what it is
  wrapped around.
* `Mark` : the names under which an operation is recorded and remarked on, and what a record and a
  remark that belong together agree on.

A layer is a function from services to services, and its lemma has the form of one: if the inner
service ends in some answer on some site, the layer ends in the same answer on that site with
something added to it.  So the lemmas are put together as the layers are.

Records and remarks are written in two places, by different parts of the program and with names of
their own: a record has the id of an entity under `id`, a remark under `group_id` or `client_id`.
`sharedFields` lists which names mean the same, and that an event and a remark agree on them is
proved for each kind of event (`mark_on`).  Where the one has a field and the other has none there
is nothing to agree on.

An event is published after the operation was carried out, and a log that is away or refuses it
makes no difference to the answer: the record then waits in the queue (`gains_publish`).
-/

namespace Gatehouse

open Gatehouse.Time

/-! ## Records and remarks of an operation -/

/-- The text under a name. -/
def TraceEntry.text? (e : TraceEntry) (name : String) : Option String :=
  match e.fields.lookup name with
  | some (.text s) => some s
  | _ => none

/-- The names under which an operation is recorded and remarked on. -/
structure Mark where
  record : String
  remark : String
deriving DecidableEq

namespace Mark

/-- The names of subjects, objects and ids in a record, each with a name in a remark that is about
the same. -/
def sharedFields : List (String × String) :=
  [("subject_id", "subject_id"), ("subject", "subject"), ("object", "object"),
   ("updated_by", "caller"), ("id", "id"), ("id", "group_id"), ("id", "client_id"),
   ("owner_id", "owner"), ("parent_id", "parent_id")]

/-- Whether a record and a remark agree on every such field that both have. -/
def Agree (r : Record) (e : TraceEntry) : Prop :=
  ∀ names ∈ sharedFields, ∀ v v', r.lookup names.1 = some v → e.text? names.2 = some v' → v = v'

/-- Whether a record and a remark have a mark and agree. -/
structure On (m : Mark) (r : Record) (e : TraceEntry) : Prop where
  record : r.lookup "operation" = some m.record
  audit : e.isAudit = true
  remark : e.text? "event" = some m.remark
  agree : Agree r e

end Mark

namespace Operation

open Engine

/-- The mark of an operation that changes something. -/
def mark : Operation → Option Mark
  | issue _ => some ⟨"token.issue", "token_issued"⟩
  | refresh _ => some ⟨"token.refresh", "token_issued"⟩
  | addPolicy _ _ => some ⟨"policy.add", "policy_added"⟩
  | updatePolicy _ _ => some ⟨"policy.update", "policy_updated"⟩
  | deletePolicy _ _ => some ⟨"policy.delete", "policy_deleted"⟩
  | createGroup _ _ => some ⟨"group.create", "group_created"⟩
  | registerClient _ _ => some ⟨"client.register", "client_registered"⟩
  | enableGroup _ _ => some ⟨"group.enable", "status_changed"⟩
  | disableGroup _ _ => some ⟨"group.disable", "status_changed"⟩
  | enableClient _ _ => some ⟨"client.enable", "status_changed"⟩
  | disableClient _ _ => some ⟨"client.disable", "status_changed"⟩
  | _ => none

/-- The remark on an operation of a caller that is answered. -/
def remark (caller : String) : (op : Operation) → op.Answer → Option TraceEntry
  | issue request, _ => some (tokenEntry request.subject false)
  | refresh _, _ => some (tokenEntry caller true)
  | addPolicy _ _, p => some (policyEntry "policy_added" "policy added" p)
  | updatePolicy _ _, p => some (policyEntry "policy_updated" "policy updated" p)
  | deletePolicy _ key, _ => some (deletionEntry caller key)
  | createGroup _ _, g => some (groupEntry g)
  | registerClient _ _, c => some (clientEntry c)
  | enableGroup _ id, _ => some (statusEntry caller "group" id .enabled)
  | disableGroup _ id, _ => some (statusEntry caller "group" id .disabled)
  | enableClient _ id, _ => some (statusEntry caller "client" id .enabled)
  | disableClient _ id, _ => some (statusEntry caller "client" id .disabled)
  | _, _ => none

/-- The remarks among what is noted of an operation that is answered.  There is one for each
operation that changes something, and it comes last. -/
theorem audits_of_leaves {op : Operation} {a : op.Answer} {es : List Deed} (h : op.Leaves a es) :
    ∃ caller, audits es = (op.remark caller a).toList := by
  cases op with
  | issue request =>
      obtain rfl : es = _ := h
      exact ⟨"", rfl⟩
  | refresh token =>
      obtain ⟨subject, rfl⟩ := h
      exact ⟨subject, rfl⟩
  | addPolicy | updatePolicy =>
      obtain ⟨-, -, rfl⟩ := h
      exact ⟨"", rfl⟩
  | createGroup | registerClient =>
      obtain ⟨-, time, rfl⟩ := h
      exact ⟨"", rfl⟩
  | deletePolicy | enableGroup | disableGroup | enableClient | disableClient =>
      obtain ⟨caller, rfl⟩ := h
      exact ⟨caller, rfl⟩
  | identify | authorize | listPolicies | canAccessByKey | canAccessById | identifyThing
  | listGroups | listMemberships =>
      obtain rfl : es = _ := h
      exact ⟨"", rfl⟩

/-- An operation that fails leaves no remark once its token is accepted. -/
theorem audits_of_breaks {op : Operation} {es : List Deed} (h : op.Breaks es) :
    audits es = [] := by
  cases op with
  | addPolicy | updatePolicy | deletePolicy | enableGroup | disableGroup | enableClient
  | disableClient =>
      obtain ⟨c, e, rfl⟩ := h
      rfl
  | createGroup | registerClient =>
      obtain ⟨_, -, h⟩ := h
      cases h with
      | entity | policy => rfl
  | issue | refresh | identify | authorize | listPolicies | canAccessByKey | canAccessById
  | identifyThing | listGroups | listMemberships => exact False.elim h

end Operation

section Agreement

open Engine Mark

variable (time : Timestamp)

theorem agree_token (subject : String) (refreshed : Bool) :
    Agree ((Event.tokenIssued subject).encode time) (tokenEntry subject refreshed) := by
  simp [Agree, sharedFields, Event.lookup_encode, Event.fields, TraceEntry.text?, tokenEntry,
    TraceEntry.audit, TraceEntry.remark, List.lookup_cons]

theorem agree_tokenRefreshed (entry : TraceEntry) :
    Agree (Event.tokenRefreshed.encode time) entry := by
  simp [Agree, sharedFields, Event.lookup_encode, Event.fields]

/-- The record and the remark of a policy that was added or updated agree. -/
theorem agree_policy {e : Event} {p : Policy} (h : e.fields = Event.policyFields p)
    (event message : String) : Agree (e.encode time) (policyEntry event message p) := by
  simp [Agree, sharedFields, Event.lookup_encode, h, Event.policyFields, TraceEntry.text?,
    policyEntry, TraceEntry.audit, TraceEntry.remark, List.lookup_cons]

theorem agree_deletion (caller : String) (key : PolicyKey) :
    Agree ((Event.policyDeleted key).encode time) (deletionEntry caller key) := by
  simp [Agree, sharedFields, Event.lookup_encode, Event.fields, TraceEntry.text?, deletionEntry,
    TraceEntry.audit, TraceEntry.remark, List.lookup_cons]

/-- Those of a new group do. -/
theorem agree_group (g : Group) : Agree ((Event.groupCreated g).encode time) (groupEntry g) := by
  cases hparent : g.parent <;> by_cases hname : g.name = "" <;>
    simp [Agree, sharedFields, Event.lookup_encode, Event.fields, TraceEntry.text?, groupEntry,
      TraceEntry.audit, TraceEntry.remark, List.lookup_cons, hparent, hname]

/-- Those of a new client do. -/
theorem agree_client (c : Client) :
    Agree ((Event.clientRegistered c).encode time) (clientEntry c) := by
  simp [Agree, sharedFields, Event.lookup_encode, Event.fields, TraceEntry.text?, clientEntry,
    TraceEntry.audit, TraceEntry.remark, List.lookup_cons]

/-- Those of a status that was changed do. -/
theorem agree_status (caller entity id : String) (entityType : EntityType) (toEnabled : Bool)
    (status status' : Status) :
    Agree ((Event.statusChanged entityType toEnabled id status).encode time)
      (statusEntry caller entity id status') := by
  simp [Agree, sharedFields, Event.lookup_encode, Event.fields, TraceEntry.text?, statusEntry,
    TraceEntry.audit, TraceEntry.remark, List.lookup_cons]

end Agreement

namespace Operation

open Engine Mark

/-- An operation that is answered has a mark exactly if it has an event. -/
theorem isSome_event (op : Operation) (a : op.Answer) :
    (op.event a).isSome = op.mark.isSome := by
  cases op with
  | _ => rfl

/-- **The mark of an operation.** The record of its event and the remark on it. -/
theorem mark_on {op : Operation} {m : Mark} (hmark : op.mark = some m) (a : op.Answer)
    (caller : String) (time : Timestamp) : ∃ event entry, op.event a = some event ∧
      op.remark caller a = some entry ∧ m.On (event.encode time) entry := by
  cases op with
  | issue request =>
      obtain rfl := Option.some.inj hmark
      exact ⟨_, _, rfl, rfl, Event.lookup_encode_operation _ _, rfl, rfl, agree_token _ _ _⟩
  | refresh token =>
      obtain rfl := Option.some.inj hmark
      exact ⟨_, _, rfl, rfl, Event.lookup_encode_operation _ _, rfl, rfl, agree_tokenRefreshed _ _⟩
  | addPolicy token p | updatePolicy token p =>
      obtain rfl := Option.some.inj hmark
      exact ⟨_, _, rfl, rfl, Event.lookup_encode_operation _ _, rfl, rfl, agree_policy _ rfl _ _⟩
  | deletePolicy token key =>
      obtain rfl := Option.some.inj hmark
      exact ⟨_, _, rfl, rfl, Event.lookup_encode_operation _ _, rfl, rfl, agree_deletion _ _ _⟩
  | createGroup token g =>
      obtain rfl := Option.some.inj hmark
      exact ⟨_, _, rfl, rfl, Event.lookup_encode_operation _ _, rfl, rfl, agree_group _ _⟩
  | registerClient token c =>
      obtain rfl := Option.some.inj hmark
      exact ⟨_, _, rfl, rfl, Event.lookup_encode_operation _ _, rfl, rfl, agree_client _ _⟩
  | enableGroup | disableGroup | enableClient | disableClient =>
      obtain rfl := Option.some.inj hmark
      exact ⟨_, _, rfl, rfl, Event.lookup_encode_operation _ _, rfl, rfl,
        agree_status _ _ _ _ _ _ _ _⟩
  | identify | authorize | listPolicies | canAccessByKey | canAccessById | identifyThing
  | listGroups | listMemberships => cases hmark

end Operation

/-- The event of what an operation ends in. -/
def Operation.eventOf (op : Operation) : Except ApiError op.Answer → Option Event
  | .ok a => op.event a
  | .error _ => none

/-! ## Publishing -/

/-- Whether an outbox has one more record, in the log or in the queue, and is as before
otherwise. -/
def Outbox.Gains {ℓ : Type} (r : Record) (o o' : Outbox (ℓ × List Record)) : Prop :=
  (o'.log.2 = r :: o.log.2 ∧ o'.pending = o.pending) ∨
    (o'.log.2 = o.log.2 ∧ o'.pending = r :: o.pending)

namespace Journal

theorem impersonal_keep (reason : String) (e : EventError) (r : Record) :
    (keep reason e r).Asks Site.Impersonal :=
  ⟨rfl, fun _ => ⟨trivial, fun _ => trivial⟩⟩

theorem impersonal_publish (c : PublisherConfig) (r : Record) :
    (publish c r).Asks Site.Impersonal := by
  refine ⟨trivial, ?_⟩
  rintro (e | _)
  · exact impersonal_keep _ e r
  · refine ⟨trivial, ?_⟩
    rintro (e | _)
    · exact impersonal_keep _ e r
    · trivial

section Runs

variable {ℓ : Type} {L : EventLog ℓ} {c : PublisherConfig} {o : Outbox ℓ} {log : ℓ} {r : Record}

theorem run_probe_bind {α : Type} {reply : Except EventError Unit}
    {f : Except EventError Unit → Program journal α}
    (h : L.probe c.probeTimeout o.log = (reply, log)) :
    o.run L (probe c >>= f) = Outbox.run L (f reply) ⟨log, o.pending⟩ := by
  have hstep : o.answer L (.probe c.probeTimeout) = (reply, ⟨log, o.pending⟩) := by
    simp only [Outbox.answer, h]
    rfl
  exact congrArg (fun x : Except EventError Unit × Outbox ℓ => x.2.run L (f x.1)) hstep

theorem run_append_bind {α : Type} {reply : Except EventError Unit}
    {f : Except EventError Unit → Program journal α}
    (h : L.append c.stream r c.maxLen o.log = (reply, log)) :
    o.run L (append c r >>= f) = Outbox.run L (f reply) ⟨log, o.pending⟩ := by
  have hstep : o.answer L (.append c.stream r c.maxLen) = (reply, ⟨log, o.pending⟩) := by
    simp only [Outbox.answer, h]
    rfl
  exact congrArg (fun x : Except EventError Unit × Outbox ℓ => x.2.run L (f x.1)) hstep

/-- A record waits if the log is away. -/
theorem run_publish_of_away {e : EventError} (h : L.probe c.probeTimeout o.log = (.error e, log)) :
    (o.run L (publish c r)).2 = ⟨log, r :: o.pending⟩ :=
  congrArg Prod.snd (run_probe_bind h)

variable {log' : ℓ}

/-- A record waits if the log does not take it. -/
theorem run_publish_of_failing {e : EventError} (h : L.probe c.probeTimeout o.log = (.ok (), log))
    (h' : L.append c.stream r c.maxLen log = (.error e, log')) :
    (o.run L (publish c r)).2 = ⟨log', r :: o.pending⟩ := by
  refine (congrArg Prod.snd (run_probe_bind h)).trans ?_
  dsimp only
  exact congrArg Prod.snd (run_append_bind (o := ⟨log, o.pending⟩) h')

/-- A record that the log takes does not wait. -/
theorem run_publish_of_taking (h : L.probe c.probeTimeout o.log = (.ok (), log))
    (h' : L.append c.stream r c.maxLen log = (.ok (), log')) :
    (o.run L (publish c r)).2 = ⟨log', o.pending⟩ := by
  refine (congrArg Prod.snd (run_probe_bind h)).trans ?_
  dsimp only
  exact congrArg Prod.snd (run_append_bind (o := ⟨log, o.pending⟩) h')

/-- What is encoded is published, and that does not fail. -/
theorem run_publishEncoded_ok :
    o.run L (publishEncoded c (.ok r)) = (.ok (), (o.run L (publish c r)).2) :=
  Program.run_bind (I := journal) (Outbox.answer L) (publish c r)
    (fun _ => .done (.ok () : Except EventError Unit)) o

end Runs

/-- A record that is published is appended or waits, whatever the log answers. -/
theorem gains_publish {ℓ : Type} (L : EventLog ℓ) (c : PublisherConfig) (r : Record)
    (o : Outbox (ℓ × List Record)) : o.Gains r (o.run L.remembering (publish c r)).2 := by
  rcases hprobe : L.probe c.probeTimeout o.log.1 with ⟨e | _, log⟩
  · have hprobe' : L.remembering.probe c.probeTimeout o.log = (.error e, log, o.log.2) := by
      simp only [EventLog.remembering, hprobe]
    rw [run_publish_of_away hprobe']
    exact Or.inr ⟨rfl, rfl⟩
  · have hprobe' : L.remembering.probe c.probeTimeout o.log = (.ok (), log, o.log.2) := by
      simp only [EventLog.remembering, hprobe]
    rcases happend : L.append c.stream r c.maxLen log with ⟨e | _, log'⟩
    · have happend' : L.remembering.append c.stream r c.maxLen (log, o.log.2) =
          (.error e, log', o.log.2) := by
        simp only [EventLog.remembering, happend]
      rw [run_publish_of_failing hprobe' happend']
      exact Or.inr ⟨rfl, rfl⟩
    · have happend' : L.remembering.append c.stream r c.maxLen (log, o.log.2) =
          (.ok (), log', r :: o.log.2) := by
        simp only [EventLog.remembering, happend]
      rw [run_publish_of_taking hprobe' happend']
      exact Or.inl ⟨rfl, rfl⟩

end Journal

namespace Site

variable {κ ℓ : Type} {B : Backing κ} {L : EventLog ℓ}

/-- The publication of an event does not fail, and it runs on the outbox. -/
theorem run_publishEvent (c : PublisherConfig) (e : Event) (s : Site κ ℓ) :
    ∃ t, s.run B L (Layer.publishEvent c e) = (.ok (), t) ∧ t.backing = s.backing ∧
      t.outbox = (s.outbox.run L (Journal.publish c (e.encode (.ofNanos (B.clock s.backing))))).2 ∧
      t.metrics = s.metrics ∧ t.audits = s.audits := by
  have himpersonal : (Journal.publishEncoded c
      (.ok (e.encode (.ofNanos (B.clock s.backing))))).Asks Impersonal :=
    Program.asks_bind (Journal.impersonal_publish c _) fun _ => trivial
  obtain ⟨t, hrun, hback, houtbox, ht⟩ := run_publishing (B := B) (L := L) himpersonal s
  rw [Journal.run_publishEncoded_ok] at hrun houtbox
  refine ⟨t, ?_, hback, houtbox, ht⟩
  refine (run_bind_of_ok (a := .ofNanos (B.clock s.backing)) (t := s) rfl).trans ?_
  exact (run_bind_of_ok hrun).trans rfl

/-- The outcome of a procedure is an answer. -/
theorem run_outcome_of {α : Type} {x : Procedure α} {r : Except ApiError α} {s t : Site κ ℓ}
    (h : s.run B L x = (r, t)) : s.run B L x.outcome = (.ok r, t) := by
  refine (Program.run_bind (I := service) (answer B L) x.run _ s).trans ?_
  exact congrArg (fun u : Except ApiError α × Site κ ℓ => (Except.ok u.1, u.2)) h

theorem run_ofExcept_id {α : Type} (r : Except ApiError α) (s : Site κ ℓ) :
    s.run B L (Procedure.ofExcept id r) = (r, s) := by
  cases r with
  | ok a => rfl
  | error e => rfl

variable {inner : Service Procedure} {op : Operation} {s t : Site κ ℓ}

/-- Publishing neither changes what an operation ends in nor touches anything but the outbox.  An
operation that fails publishes nothing, and neither does one that changes nothing. -/
theorem run_journaled {r : Except ApiError op.Answer} (c : PublisherConfig)
    (h : s.run B L (inner op) = (r, t)) :
    ∃ u, s.run B L (Layer.journaled c inner op) = (r, u) ∧ u.backing = t.backing ∧
      u.outbox = (match op.eventOf r with
        | some event =>
          (t.outbox.run L (Journal.publish c (event.encode (.ofNanos (B.clock t.backing))))).2
        | none => t.outbox) ∧
      u.metrics = t.metrics ∧ u.audits = t.audits := by
  cases r with
  -- a failure has no event, and what follows it is not run
  | error e => exact ⟨t, run_bind_of_error h, rfl, rfl, rfl, rfl⟩
  | ok a =>
      cases hevent : op.event a with
      | none =>
          refine ⟨t, (run_bind_of_ok h).trans ?_, rfl, ?_, rfl, rfl⟩
          · rw [hevent]
            rfl
          · rw [show op.eventOf (.ok a) = none from hevent]
      | some event =>
          obtain ⟨u, hrun, hback, houtbox, hu⟩ := run_publishEvent (B := B) (L := L) c event t
          refine ⟨u, (run_bind_of_ok h).trans ?_, hback, ?_, hu⟩
          · rw [hevent]
            exact run_bind_of_ok hrun
          · rw [show op.eventOf (.ok a) = some event from hevent]
            exact houtbox

theorem isAudit_callRemark (method : String) (micros : Nat) (e : Option ApiError) :
    (Layer.callRemark method micros e).isAudit = false := by
  cases e with
  | none => rfl
  | some e => rfl

/-- The remark on a call is all that is added. -/
theorem run_logged {r : Except ApiError op.Answer} (h : s.run B L (inner op) = (r, t)) :
    s.run B L (Layer.logged inner op) = (r, t.remark (Layer.callRemark op.method
      (Metrics.microsOf (B.clock t.backing - B.clock s.backing)) (Layer.errorOf r))) := by
  refine (run_bind_of_ok (a := B.clock s.backing) (t := s) rfl).trans ?_
  refine (run_bind_of_ok (run_outcome_of h)).trans ?_
  refine (run_bind_of_ok (a := B.clock t.backing) (t := t) rfl).trans ?_
  refine (run_bind_of_ok (a := ()) rfl).trans ?_
  exact run_ofExcept_id _ _

/-- The count of a call is all that is added. -/
theorem run_measured {r : Except ApiError op.Answer} (h : s.run B L (inner op) = (r, t)) :
    s.run B L (Layer.measured inner op) = (r, { t with
      metrics := t.metrics.countCall op.method (B.clock t.backing - B.clock s.backing)
        (Layer.errorOf r).isSome }) := by
  refine (run_bind_of_ok (a := B.clock s.backing) (t := s) rfl).trans ?_
  refine (run_bind_of_ok (run_outcome_of h)).trans ?_
  refine (run_bind_of_ok (a := B.clock t.backing) (t := t) rfl).trans ?_
  refine (run_bind_of_ok (a := ()) rfl).trans ?_
  exact run_ofExcept_id _ _

end Site

end Gatehouse
