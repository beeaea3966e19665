import Gatehouse.Proofs.Service.History
import Gatehouse.Proofs.Service.Layer

/-!
# Gatehouse.Proofs.Service.Compose — the engine within its layers

The composed service is asked for one operation after the other, over any backing and before any
event log.  Between two operations anything may happen to both: time passes, entries expire, others
write, and the log comes and goes.

`compose_transparent` is the main result.  An operation ends in what it ends in without the layers
and leaves the backing in the same state; it leaves a `Trail`; and the counts of a method are those
of its calls and of its failures.

The layers stand around the engine: one publishes the event of a change, one remarks on the call,
and one counts it and how long it took.  None of them asks the backing for anything but the time.
So the operation within them is the operation without them (`run_compose`), and what they leave
follows from what it ended in.

What the trail says of records and remarks is said together, because they should agree: a change has
exactly one of each, and they name the same operation, entity and subject where they name any
(`Mark.On`).  The record may be in the log or in the queue before it; which of the two depends on
the log, and that it is in one of them does not.

Whether a token is accepted divides the cases.  If it is not, the engine has done nothing and
remarks on the reason, and the layers find an operation that failed.  If it is, what the engine has
remarked on is what it acted on, which is known from its traces.
-/

namespace Gatehouse

open Gatehouse.Time

variable {κ ℓ : Type} {B : Backing κ} {L : EventLog ℓ} (tokens : TokenIssuer)

/-! ## Counts -/

namespace Metrics

/-- A call is counted for its method and for no other. -/
theorem calls_countCall (m : Metrics) (method method' : String) (nanos : Nat) (failed : Bool) :
    ((m.countCall method nanos failed).statsOf method').calls =
      (m.statsOf method').calls + (if method = method' then 1 else 0) := by
  unfold countCall statsOf
  rw [Table.lookup_insert]
  by_cases h : method = method'
  · rw [if_pos h.symm, if_pos h, h]
    rfl
  · rw [if_neg (Ne.symm h), if_neg h, Nat.add_zero]

/-- An error is counted for the method of a call that failed. -/
theorem errors_countCall (m : Metrics) (method method' : String) (nanos : Nat) (failed : Bool) :
    ((m.countCall method nanos failed).statsOf method').errors =
      (m.statsOf method').errors + (if method = method' ∧ failed then 1 else 0) := by
  unfold countCall statsOf
  rw [Table.lookup_insert]
  by_cases h : method = method'
  · subst h
    cases failed with
    | true => simp
    | false => simp
  · rw [if_neg (Ne.symm h), if_neg fun hboth => h hboth.1, Nat.add_zero]

end Metrics

/-! ## Trails -/

namespace Operation

/-- Whether the token of an operation, if it takes one, is accepted at a time. -/
def Admitted (time : Timestamp) (op : Operation) : Prop :=
  ∀ token, op.token? = some token →
    ∃ c, tokens.parse time.seconds token = .ok c ∧ c.kind = op.tokenKind

/-- What an operation leaves behind at a time.  A token that is not accepted leaves one remark on
that; a change leaves one record and one remark, both under the mark of the operation; and nothing
else leaves either. -/
structure Trail (time : Timestamp) (op : Operation) (r : Except ApiError op.Answer)
    (s t : Site κ (ℓ × List Record)) : Prop where
  refused : ¬op.Admitted tokens time → (∃ e, r = .error e) ∧ t.outbox = s.outbox ∧
    ∃ reason, t.audits = .authFailure reason :: s.audits
  changed : op.Admitted tokens time → ∀ m a, op.mark = some m → r = .ok a →
    ∃ event later caller entry, op.event a = some event ∧ op.remark caller a = some entry ∧
      m.On (event.encode later) entry ∧ s.outbox.Gains (event.encode later) t.outbox ∧
      t.audits = entry :: s.audits
  unchanged : op.Admitted tokens time → (op.mark = none ∨ ∃ e, r = .error e) →
    t.outbox = s.outbox ∧ t.audits = s.audits

end Operation

namespace Site

open Engine

variable {s t : Site κ ℓ} {op : Operation}

/-- The claims of a token are read, or a remark says why they are not. -/
theorem run_claims (token : String) (kind : TokenKind) (s : Site κ ℓ) :
    s.run B L (claims tokens token kind) =
      match tokens.parse (Timestamp.ofNanos (B.clock s.backing)).seconds token with
      | .error e => (.error (.ofToken e), s.remark (.authFailure e.message))
      | .ok c =>
        if c.kind = kind then (.ok c, s)
        else (.error (.authentication s!"{kind.name} token required, got {c.kind.name}"),
          s.remark (.authFailure "unexpected token kind")) := by
  refine (run_bind_of_ok (a := .ofNanos (B.clock s.backing)) (t := s) rfl).trans ?_
  cases tokens.parse (Timestamp.ofNanos (B.clock s.backing)).seconds token with
  | error e => rfl
  | ok c =>
      dsimp only
      split
      · rfl
      · rfl

/-- A token that is accepted is read. -/
theorem run_claims_of_ok {token : String} {kind : TokenKind} {c : Claims}
    (hparse : tokens.parse (Timestamp.ofNanos (B.clock s.backing)).seconds token = .ok c)
    (hkind : c.kind = kind) : s.run B L (claims tokens token kind) = (.ok c, s) := by
  rw [run_claims, hparse]
  exact if_pos hkind

/-- A token that is not accepted is remarked on. -/
theorem run_claims_of_refused {token : String} {kind : TokenKind}
    (h : ¬∃ c, tokens.parse (Timestamp.ofNanos (B.clock s.backing)).seconds token = .ok c ∧
      c.kind = kind) : ∃ e reason,
    s.run B L (claims tokens token kind) = (.error e, s.remark (.authFailure reason)) := by
  rw [run_claims]
  cases hparse : tokens.parse (Timestamp.ofNanos (B.clock s.backing)).seconds token with
  | error e => exact ⟨_, _, rfl⟩
  | ok c =>
      dsimp only
      rw [if_neg fun hkind => h ⟨c, hparse, hkind⟩]
      exact ⟨_, _, rfl⟩

/-- An operation whose token is not accepted. -/
theorem run_serve_of_refused (h : ¬op.Admitted tokens (.ofNanos (B.clock s.backing))) :
    ∃ e reason, s.run B L (serve tokens op) = (.error e, s.remark (.authFailure reason)) := by
  have hserve := does_serve tokens op
  cases htoken : op.token? with
  | none => exact absurd (fun token ht => nomatch htoken.symm.trans ht) h
  | some token =>
      rw [htoken] at hserve
      obtain ⟨rest, heq, -⟩ := hserve
      have hrefused : ¬∃ c, tokens.parse (Timestamp.ofNanos (B.clock s.backing)).seconds token =
          .ok c ∧ c.kind = op.tokenKind := by
        intro hc
        refine h fun token' htoken' => ?_
        obtain rfl := Option.some.inj (htoken.symm.trans htoken')
        exact hc
      obtain ⟨e, reason, hrun⟩ := run_claims_of_refused (L := L) tokens hrefused
      refine ⟨e, reason, ?_⟩
      rw [heq]
      exact run_bind_of_error hrun

/-- An operation whose token is accepted looks for a while, and then it fails or acts. -/
theorem run_serve_of_admitted (h : op.Admitted tokens (.ofNanos (B.clock s.backing))) :
    ∃ es, Procedure.Eventually op.Acts es (s.run B L (serve tokens op)).1 ∧
      (s.run B L (serve tokens op)).2.audits = (Gatehouse.audits es).reverse ++ s.audits ∧
      (s.run B L (serve tokens op)).2.outbox = s.outbox ∧
      (s.run B L (serve tokens op)).2.metrics.methods = s.metrics.methods := by
  -- behind the token the operation runs from the same site
  have hdoes : ∃ x : Procedure op.Answer, x.Does op.Acts ∧
      s.run B L (serve tokens op) = s.run B L x := by
    have hserve := does_serve tokens op
    cases htoken : op.token? with
    | none =>
        rw [htoken] at hserve
        exact ⟨_, hserve, rfl⟩
    | some token =>
        rw [htoken] at hserve
        obtain ⟨rest, heq, hrest⟩ := hserve
        obtain ⟨c, hparse, hkind⟩ := h token htoken
        refine ⟨rest c, hrest c, ?_⟩
        rw [heq]
        exact run_bind_of_ok (run_claims_of_ok tokens hparse hkind)
  obtain ⟨x, hx, hrun⟩ := hdoes
  rw [hrun]
  obtain ⟨es, hes, -, hrest⟩ := run_tells (R := fun _ _ _ => True) (fun _ => trivial)
    (fun _ _ _ _ _ => trivial) (fun _ _ _ _ _ => trivial) (fun _ _ _ _ => trivial)
    (fun _ _ _ _ _ => trivial) hx s
  exact ⟨es, hes, hrest⟩

end Site

/-! ## The remarks of an operation -/

namespace Operation

variable {op : Operation} {es : List Deed}

/-- An operation that is answered leaves its remark. -/
theorem audits_of_answered {a : op.Answer} (h : Procedure.Eventually op.Acts es (.ok a)) :
    ∃ caller, audits es = (op.remark caller a).toList := by
  obtain ⟨looks, core, hlooks, rfl, hcore⟩ := h
  rw [audits_append, audits_eq_nil hlooks, List.nil_append]
  rcases hcore with hleaves | ⟨-, e, he⟩
  · exact audits_of_leaves hleaves
  · cases he

/-- An operation that fails leaves none. -/
theorem audits_of_failed {e : ApiError} (h : Procedure.Eventually op.Acts es (.error e)) :
    audits es = [] := by
  obtain ⟨looks, core, hlooks, rfl, hcore⟩ := h
  rw [audits_append, audits_eq_nil hlooks, List.nil_append]
  rcases hcore with hbreaks | ⟨rfl, -⟩
  · exact audits_of_breaks hbreaks
  · rfl

/-- What leaves no mark leaves no remark. -/
theorem remark_of_mark_eq_none (hmark : op.mark = none) (caller : String) (a : op.Answer) :
    op.remark caller a = none := by
  cases op with
  | identify | authorize | listPolicies | canAccessByKey | canAccessById | identifyThing
  | listGroups | listMemberships => rfl
  | _ => cases hmark

/-- What leaves no mark is no event. -/
theorem event_of_mark_eq_none (hmark : op.mark = none) (a : op.Answer) : op.event a = none := by
  have hevent := op.isSome_event a
  rw [hmark] at hevent
  exact Option.isNone_iff_eq_none.1 (by rw [← Option.not_isSome, hevent]; rfl)

end Operation

namespace Site

variable {s t : Site κ ℓ} {op : Operation}

/-- **The layers.**  Around a run of the engine they publish the event of the operation, remark on
the call and count it.  The backing is the one that the engine has left; beyond that the layers only
read its clock, for the record and for how long the call took. -/
theorem run_compose {r : Except ApiError op.Answer} (c : PublisherConfig)
    (h : s.run B L (Engine.serve tokens op) = (r, t)) :
    ∃ u nanos, s.run B L (compose tokens c op) = (r, u) ∧ u.backing = t.backing ∧
      u.outbox = (match op.eventOf r with
        | some event =>
          (t.outbox.run L (Journal.publish c (event.encode (.ofNanos (B.clock t.backing))))).2
        | none => t.outbox) ∧
      u.audits = t.audits ∧
      u.metrics = t.metrics.countCall op.method nanos (Layer.errorOf r).isSome := by
  obtain ⟨u, hrun, hback, houtbox, hmetrics, haudits⟩ := run_journaled c h
  refine ⟨_, B.clock u.backing - B.clock s.backing, run_measured (run_logged hrun), hback, houtbox,
    ?_, ?_⟩
  · exact (audits_remark_of_not (isAudit_callRemark _ _ _) u).trans haudits
  · rw [← hmetrics]
    rfl

/-- **The trail of an operation.**  A token that is not accepted leaves one remark on that.
Otherwise the remarks are those of the engine, one for a change that was made and none for anything
else, and the record is that of the event, if there is one. -/
theorem trail_compose (c : PublisherConfig) (op : Operation) (s : Site κ (ℓ × List Record)) :
    op.Trail tokens (.ofNanos (B.clock s.backing)) (s.run B L.remembering (compose tokens c op)).1 s
      (s.run B L.remembering (compose tokens c op)).2 := by
  rcases hserve : s.run B L.remembering (Engine.serve tokens op) with ⟨r, t⟩
  obtain ⟨u, nanos, hrun, -, houtbox, haudits, -⟩ := run_compose tokens c hserve
  rw [hrun]
  constructor
  · intro hrefused
    obtain ⟨e, reason, hrefusal⟩ := run_serve_of_refused (L := L.remembering) tokens hrefused
    obtain ⟨rfl, rfl⟩ := Prod.mk.inj (hserve.symm.trans hrefusal)
    refine ⟨⟨e, rfl⟩, houtbox, reason, haudits.trans ?_⟩
    exact audits_remark_of_isAudit rfl s
  · rintro hadmitted m a hmark rfl
    obtain ⟨es, hes, hserved, hkept, -⟩ :=
      run_serve_of_admitted (L := L.remembering) tokens hadmitted
    rw [hserve] at hes hserved hkept
    obtain ⟨caller, hcaller⟩ := Operation.audits_of_answered hes
    obtain ⟨event, entry, hevent, hentry, hmarked⟩ := Operation.mark_on hmark a caller
      (.ofNanos (B.clock t.backing))
    rw [show op.eventOf (.ok a) = some event from hevent, hkept] at houtbox
    refine ⟨event, _, caller, entry, hevent, hentry, hmarked, ?_, ?_⟩
    · rw [houtbox]
      exact Journal.gains_publish L c _ s.outbox
    · rw [haudits, hserved, hcaller, hentry]
      rfl
  · intro hadmitted hquiet
    obtain ⟨es, hes, hserved, hkept, -⟩ :=
      run_serve_of_admitted (L := L.remembering) tokens hadmitted
    rw [hserve] at hes hserved hkept
    -- an operation without a mark has neither event nor remark, and one that failed has neither
    -- either
    have hnothing : op.eventOf r = none ∧ Gatehouse.audits es = [] := by
      rcases hquiet with hmark | ⟨e, rfl⟩
      · cases r with
        | error e => exact ⟨rfl, Operation.audits_of_failed hes⟩
        | ok a =>
            obtain ⟨caller, hcaller⟩ := Operation.audits_of_answered hes
            rw [Operation.remark_of_mark_eq_none hmark] at hcaller
            exact ⟨Operation.event_of_mark_eq_none hmark a, hcaller⟩
      · exact ⟨rfl, Operation.audits_of_failed hes⟩
    rw [hnothing.1, hkept] at houtbox
    rw [hnothing.2] at hserved
    exact ⟨houtbox, haudits.trans hserved⟩

/-- An operation within the layers ends in what it ends in without them and leaves the backing in
the same state. -/
theorem run_compose_eq (c : PublisherConfig) (op : Operation) {s t : Site κ ℓ}
    (h : s.backing = t.backing) :
    (s.run B L (compose tokens c op)).1 = (t.run B L (Engine.serve tokens op)).1 ∧
      (s.run B L (compose tokens c op)).2.backing =
        (t.run B L (Engine.serve tokens op)).2.backing := by
  rcases hserve : s.run B L (Engine.serve tokens op) with ⟨r, s'⟩
  obtain ⟨u, nanos, hrun, hback, -⟩ := run_compose tokens c hserve
  have hinward := Program.asks_of_tells (Engine.tells_serve tokens op)
  have heq := run_eq_of_backing (B := B) (L := L) hinward h
  rw [hserve] at heq
  rw [hrun]
  exact ⟨heq.1, hback.trans heq.2⟩

/-- The counts of a method after an operation. -/
theorem statsOf_compose (c : PublisherConfig) (op : Operation) (method : String) (s : Site κ ℓ) :
    ((s.run B L (compose tokens c op)).2.metrics.statsOf method).calls =
        (s.metrics.statsOf method).calls + (if op.method = method then 1 else 0) ∧
      ((s.run B L (compose tokens c op)).2.metrics.statsOf method).errors =
        (s.metrics.statsOf method).errors +
          (if op.method = method ∧ (Layer.errorOf (s.run B L (compose tokens c op)).1).isSome
            then 1 else 0) := by
  rcases hserve : s.run B L (Engine.serve tokens op) with ⟨r, t⟩
  obtain ⟨u, nanos, hrun, -, -, -, hmetrics⟩ := run_compose tokens c hserve
  obtain ⟨es, -, -, -, -, hmethods⟩ := run_tells (B := B) (L := L) (R := fun _ _ _ => True)
    (fun _ => trivial) (fun _ _ _ _ _ => trivial) (fun _ _ _ _ _ => trivial)
    (fun _ _ _ _ => trivial) (fun _ _ _ _ _ => trivial) (Engine.tells_serve tokens op) s
  rw [hserve] at hmethods
  have hstats : t.metrics.statsOf method = s.metrics.statsOf method :=
    congrArg (fun methods => (methods.lookup method).getD ⟨0, 0, 0⟩) hmethods
  rw [hrun, hmetrics, ← hstats]
  exact ⟨Metrics.calls_countCall _ _ _ _ _, Metrics.errors_countCall _ _ _ _ _⟩

end Site

/-! ## One operation after the other -/

/-- An operation, and what happens to the backing and to the outbox before it. -/
structure Meeting (κ ℓ : Type) where
  backing : κ → κ
  outbox : Outbox ℓ → Outbox ℓ
  op : Operation

/-- An operation and what it ended in. -/
abbrev Result := (op : Operation) × Except ApiError op.Answer

namespace Site

/-- The site before an operation. -/
def meet (s : Site κ ℓ) (m : Meeting κ ℓ) : Site κ ℓ :=
  { s with backing := m.backing s.backing, outbox := m.outbox s.outbox }

/-- What some operations end in, and the site after them. -/
def attend (B : Backing κ) (L : EventLog ℓ) (service : Service Procedure) :
    List (Meeting κ ℓ) → Site κ ℓ → List Result × Site κ ℓ
  | [], s => ([], s)
  | m :: rest, s =>
    let (r, t) := (s.meet m).run B L (service m.op)
    let (rs, u) := attend B L service rest t
    (⟨m.op, r⟩ :: rs, u)

theorem attend_cons (service : Service Procedure) (m : Meeting κ ℓ) (rest : List (Meeting κ ℓ))
    (s : Site κ ℓ) : s.attend B L service (m :: rest) =
      (⟨m.op, ((s.meet m).run B L (service m.op)).1⟩ ::
          (((s.meet m).run B L (service m.op)).2.attend B L service rest).1,
        (((s.meet m).run B L (service m.op)).2.attend B L service rest).2) := rfl

/-- Within the layers all operations end in what they end in without them. -/
theorem attend_compose_eq (c : PublisherConfig) (meetings : List (Meeting κ ℓ)) {s t : Site κ ℓ}
    (hback : s.backing = t.backing) :
    (s.attend B L (compose tokens c) meetings).1 = (t.attend B L (Engine.serve tokens) meetings).1 ∧
      (s.attend B L (compose tokens c) meetings).2.backing =
        (t.attend B L (Engine.serve tokens) meetings).2.backing := by
  induction meetings generalizing s t with
  | nil => exact ⟨rfl, hback⟩
  | cons m rest ih =>
      have hmet : (s.meet m).backing = (t.meet m).backing := congrArg m.backing hback
      obtain ⟨hresult, hback'⟩ := run_compose_eq (B := B) (L := L) tokens c m.op hmet
      obtain ⟨hresults, hback''⟩ := ih hback'
      refine ⟨?_, hback''⟩
      exact congrArg₂ (fun r rs => (⟨m.op, r⟩ : Result) :: rs) hresult hresults

/-- The counts of a method grow by those of its calls and of its failures. -/
theorem attend_compose_stats (c : PublisherConfig) (method : String)
    (meetings : List (Meeting κ ℓ)) (s : Site κ ℓ) :
    ((s.attend B L (compose tokens c) meetings).2.metrics.statsOf method).calls =
        (s.metrics.statsOf method).calls +
          (s.attend B L (compose tokens c) meetings).1.countP (fun r => r.1.method = method) ∧
      ((s.attend B L (compose tokens c) meetings).2.metrics.statsOf method).errors =
        (s.metrics.statsOf method).errors +
          (s.attend B L (compose tokens c) meetings).1.countP
            (fun r => r.1.method = method ∧ (Layer.errorOf r.2).isSome) := by
  induction meetings generalizing s with
  | nil => exact ⟨rfl, rfl⟩
  | cons m rest ih =>
      obtain ⟨hcalls, herrors⟩ := ih ((s.meet m).run B L (compose tokens c m.op)).2
      obtain ⟨hcall, herror⟩ := statsOf_compose (B := B) (L := L) tokens c m.op method (s.meet m)
      simp only [attend_cons, List.countP_cons, decide_eq_true_eq]
      have hmet : (s.meet m).metrics = s.metrics := rfl
      rw [hmet] at hcall herror
      constructor
      · rw [hcalls, hcall]
        omega
      · rw [herrors, herror]
        omega

/-- **The composed service.**  Take any operations one after the other, and let anything happen to
the backing and to the log between them.  With the layers each ends in what it ends in without them,
and leaves the same backing.  Each leaves its trail: one record and one remark of a change, which
agree; one remark on a token that was refused; and nothing else.  And of every method the layers
have counted as many calls as were made, and as many errors as ended in one. -/
theorem compose_transparent (c : PublisherConfig) (B : Backing κ) (L : EventLog ℓ) :
    (∀ (meetings : List (Meeting κ (ℓ × List Record))) (s t : Site κ (ℓ × List Record)),
      s.backing = t.backing →
      (s.attend B L.remembering (compose tokens c) meetings).1 =
          (t.attend B L.remembering (Engine.serve tokens) meetings).1 ∧
        (s.attend B L.remembering (compose tokens c) meetings).2.backing =
          (t.attend B L.remembering (Engine.serve tokens) meetings).2.backing) ∧
    (∀ (op : Operation) (s : Site κ (ℓ × List Record)),
      op.Trail tokens (.ofNanos (B.clock s.backing))
        (s.run B L.remembering (compose tokens c op)).1 s
        (s.run B L.remembering (compose tokens c op)).2) ∧
    ∀ (meetings : List (Meeting κ (ℓ × List Record))) (s : Site κ (ℓ × List Record))
      (method : String), s.metrics = .empty →
      let results := (s.attend B L.remembering (compose tokens c) meetings).1
      let stats := (s.attend B L.remembering (compose tokens c) meetings).2.metrics.statsOf method
      stats.calls = results.countP (fun r => r.1.method = method) ∧
        stats.errors =
          results.countP fun r => r.1.method = method ∧ (Layer.errorOf r.2).isSome := by
  refine ⟨?_, trail_compose tokens c, ?_⟩
  · intro meetings s t hback
    exact attend_compose_eq tokens c meetings hback
  · intro meetings s method hempty
    obtain ⟨hcalls, herrors⟩ := attend_compose_stats (B := B) (L := L.remembering) tokens c method
      meetings s
    -- the counts start at zero
    rw [hempty] at hcalls herrors
    exact ⟨hcalls.trans (Nat.zero_add _), herrors.trans (Nat.zero_add _)⟩

/-- A meter is registered; then the event log goes away, and the meter is switched off; then
somebody else asks for it to be switched on. -/
def outageMeetings : List (Meeting World (MemoryLog × List Record)) :=
  [⟨id, id, .registerClient "owner" ⟨"meter", "", "", "secret", .enabled, ⟨0, 0⟩, ⟨0, 0⟩⟩⟩,
   ⟨id, fun o => { o with log := ({ o.log.1 with available := false }, o.log.2) },
      .disableClient "owner" "meter"⟩,
   ⟨id, id, .enableClient "reader" "meter"⟩]

/-- Of the two changes one record is in the log and one waits; the refusal is counted. -/
theorem compose_transparent_outage :
    let s : Site World (MemoryLog × List Record) := fresh (.empty 60000000000 0) (.empty, [])
    let t := s.attend .memory MemoryLog.eventLog.remembering (compose .named {}) outageMeetings
    t.1 = (s.attend .memory MemoryLog.eventLog.remembering (Engine.serve .named) outageMeetings).1 ∧
      (t.2.metrics.statsOf "enable_client").errors = t.1.countP (fun r =>
        r.1.method = "enable_client" ∧ (Layer.errorOf r.2).isSome) ∧
      (t.2.metrics.statsOf "enable_client").errors = 1 ∧
      t.2.outbox.log.2.length = 1 ∧ t.2.outbox.pending.length = 1 := by
  obtain ⟨hresults, -, hstats⟩ := compose_transparent .named {} .memory MemoryLog.eventLog
  have hresult := (hresults outageMeetings (fresh (.empty 60000000000 0) (.empty, [])) _ rfl).1
  have herrors := (hstats outageMeetings (fresh (.empty 60000000000 0) (.empty, []))
    "enable_client" rfl).2
  exact ⟨hresult, herrors, by decide +kernel, by decide +kernel, by decide +kernel⟩

end Site

end Gatehouse
