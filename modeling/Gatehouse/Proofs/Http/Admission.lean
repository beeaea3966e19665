import Gatehouse.Http.Server
import Gatehouse.Proofs.Json.Datum
import Gatehouse.Proofs.Service.Compose
import Gatehouse.Proofs.Service.Failure
import Gatehouse.Proofs.Service.Gate

/-!
# Gatehouse.Proofs.Http.Admission — who gets through, and what is touched without a token

Whether a request needs a credential is read off the beginning of its path, and where it leads is
looked up in a table of whole paths.  The two agree: below the open beginnings there are only
endpoints that take no token (`isOpen_of_handled`), and each of the others asks for an operation
with the token that was presented (`operation_cases`).  What is asked for without a token only
looks, and what is asked for with one that is not accepted is refused before anything is done.

* `unadmitted_changes_nothing` : over any store in memory, whatever fails in it, and before any
  event log, a request leaves the tables, the log and the queue before it as they were, unless it
  presents a token that is accepted for the operation it asks for.

The agreement has to be proved because the two are written apart.  An endpoint that was put below an
open beginning and asked for an operation with a token would be given the empty text for one, and an
endpoint outside them that took none would be refused to everybody.

What stays the same is the content: the tables, the log and the queue.  Counters and caches are not
part of it.  The number of requests grows with each of them, and the question of a device may leave
an entry in a cache.
-/

namespace Gatehouse

open Gatehouse.Time

/-! ## Operations of devices -/

namespace Operation

/-- Whether an operation is one of the three that are for devices. -/
def ForDevices : Operation → Prop
  | canAccessByKey _ _ | canAccessById _ _ | identifyThing _ => True
  | _ => False

theorem idle_serve_of_forDevices (tokens : TokenIssuer) {op : Operation} (h : op.ForDevices) :
    (Engine.serve tokens op).Idle := by
  cases op with
  | canAccessByKey channel key => exact Engine.idle_canAccessByKey channel key
  | canAccessById channel client => exact Engine.idle_canAccessById channel client
  | identifyThing key => exact Engine.idle_identifyThing key
  | _ => exact False.elim h

theorem eventOf_of_forDevices {op : Operation} (h : op.ForDevices) (r : Except ApiError op.Answer) :
    op.eventOf r = none := by
  cases op with
  | canAccessByKey | canAccessById | identifyThing => cases r <;> rfl
  | _ => exact False.elim h

end Operation

/-! ## Sites that hold the same -/

/-- What only looks at a store leaves its tables as they are, whether it is planned to fail or
not. -/
theorem World.sameTables_answerStore {c : StoreCall} {w : World}
    (hreads : ∀ d ∈ c.deeds (w.answerStore c).1, d.IsRead) :
    w.store.SameTables (w.answerStore c).2.store := by
  cases hread : c.isRead with
  | true =>
      unfold answerStore
      split
      · exact Store.sameTables_of_eq rfl
      · show w.store.SameTables (w.store.answer _ c).2
        rw [Store.answer_read _ c _ hread]
        exact ⟨rfl, rfl, rfl⟩
  | false =>
      rw [deeds_of_write hread] at hreads
      cases hreply : (w.answerStore c).1 with
      | ok value =>
          rw [hreply] at hreads
          exact False.elim (hreads _ (List.mem_singleton.2 rfl))
      | error e =>
          rw [hreply] at hreads
          exact False.elim (hreads _ (List.mem_singleton.2 rfl))

namespace Site

variable {ℓ : Type} {L : EventLog ℓ} {s t u : Site World ℓ} {tokens : TokenIssuer}
  {op : Operation}

/-- Whether two sites hold the same: the tables of the store, the event log, and the queue before
it. -/
def SameHoldings (s t : Site World ℓ) : Prop :=
  s.backing.store.SameTables t.backing.store ∧ t.outbox = s.outbox

theorem SameHoldings.trans (h : s.SameHoldings t) (h' : t.SameHoldings u) : s.SameHoldings u :=
  ⟨h.1.trans h'.1, h'.2.trans h.2⟩

theorem sameHoldings_of_eq (hback : t.backing = s.backing) (houtbox : t.outbox = s.outbox) :
    s.SameHoldings t :=
  ⟨Store.sameTables_of_eq (congrArg World.store hback), houtbox⟩

/-- What only looks leaves everything as it is. -/
theorem sameHoldings_of_idle {α : Type} {x : Procedure α} (hx : x.Idle) (s : Site World ℓ) :
    s.SameHoldings (s.run .memory L x).2 := by
  obtain ⟨es, hes, hback, -, houtbox, -⟩ := run_tells (B := .memory) (L := L)
    (R := fun w es w' => (∀ d ∈ es, d.IsRead) → w.store.SameTables w'.store)
    (fun _ _ => ⟨rfl, rfl, rfl⟩)
    (fun c w es w' hrest hes => by
      obtain ⟨hdeeds, hes⟩ := List.forall_mem_append.1 hes
      exact (World.sameTables_answerStore hdeeds).trans (hrest hes))
    (fun c w es w' hrest hes => by
      have hkept := (w.answerCache_keeps c).1
      exact (Store.sameTables_of_eq hkept).trans (hrest hes))
    (fun _ _ _ hrest hes => hrest hes)
    (fun _ _ _ _ _ hes => False.elim (List.forall_mem_cons.1 hes).1) hx s
  exact ⟨hback hes, houtbox⟩

/-- An operation for devices, within the layers. -/
theorem sameHoldings_of_forDevices (c : PublisherConfig) (h : op.ForDevices) (s : Site World ℓ) :
    s.SameHoldings (s.run .memory L (compose tokens c op)).2 := by
  rcases hserve : s.run .memory L (Engine.serve tokens op) with ⟨r, t⟩
  obtain ⟨u, nanos, hrun, hback, houtbox, -⟩ := run_compose tokens c hserve
  rw [Operation.eventOf_of_forDevices h] at houtbox
  have hidle := sameHoldings_of_idle (L := L) (Operation.idle_serve_of_forDevices tokens h) s
  rw [hserve] at hidle
  rw [hrun]
  exact hidle.trans (sameHoldings_of_eq hback houtbox)

/-- An operation whose token is not accepted, within the layers. -/
theorem sameHoldings_of_refused (c : PublisherConfig)
    (h : ¬op.Admitted tokens (.ofNanos s.backing.clock)) :
    s.SameHoldings (s.run .memory L (compose tokens c op)).2 := by
  obtain ⟨e, reason, hserve⟩ := run_serve_of_refused (B := .memory) (L := L) tokens h
  obtain ⟨u, nanos, hrun, hback, houtbox, -⟩ := run_compose tokens c hserve
  rw [hrun]
  exact sameHoldings_of_eq hback houtbox

end Site

namespace Http

open Gatehouse.Text

/-! ## Where requests without a credential arrive -/

/-- Whether an endpoint takes no token. -/
def Endpoint.IsOpen : Endpoint → Prop
  | health | accessByKey _ | accessById _ | identifyThing => True
  | _ => False

variable {r : Request} {token : String} {e : Endpoint}

/-- Where a request arrives is a row of the table for its verb and its path. -/
theorem mem_endpoints_of_endpoint (h : r.endpoint = .ok e) :
    (r.verb, e) ∈ endpoints r.segments := by
  unfold Request.endpoint at h
  split at h
  · cases h
  · split at h
    · cases h
    · next hlookup =>
      cases h
      exact Table.mem_of_lookup_entries hlookup

/-- A request that is handled has a credential, if it needs one, and leads to the endpoint that
handles it. -/
theorem endpoint_of_handled (h : r.arrival = .handled token e) :
    credential r = .ok token ∧ r.endpoint = .ok e := by
  unfold Request.arrival at h
  split at h
  · cases h
  · next hcredential =>
    split at h
    · cases h
    · next hendpoint =>
      cases h
      exact ⟨hcredential, hendpoint⟩

/-- The pieces of a path that begins with two of them. -/
theorem segments_of_isPrefixOf {a b : String} (ha : '/' ∉ a.toList) (hb : '/' ∉ b.toList)
    (h : ('/' :: (a.toList ++ '/' :: (b.toList ++ ['/']))).isPrefixOf r.path.toList = true) :
    ∃ more, r.segments = "" :: a :: b :: more := by
  obtain ⟨rest, hrest⟩ := List.isPrefixOf_iff_prefix.1 h
  refine ⟨(splitAt '/' rest).map String.ofList, ?_⟩
  have hpath : r.path.toList = [] ++ '/' :: (a.toList ++ '/' :: (b.toList ++ '/' :: rest)) := by
    rw [← hrest]
    simp
  unfold Request.segments
  rw [hpath, splitAt_append List.not_mem_nil, splitAt_append ha, splitAt_append hb]
  simp

/-- The paths that begin like those of devices lead to their endpoints or nowhere. -/
theorem isOpen_of_mem_endpoints {verb second : String} {more : List String}
    (hsecond : second = "channels" ∨ second = "things")
    (h : (verb, e) ∈ endpoints ("" :: "v1" :: second :: more)) : e.IsOpen := by
  unfold endpoints at h
  split at h
  -- a path is one of devices, or it is unknown, or its second piece is another one
  all_goals
    first
    | (obtain ⟨-, rfl⟩ := Prod.mk.inj (List.mem_singleton.1 h)
       trivial)
    | exact absurd h List.not_mem_nil
    | (next heq =>
       simp only [List.cons.injEq] at heq
       obtain ⟨-, -, rfl, -⟩ := heq
       exact absurd hsecond (by decide))

/-- **Open paths** lead to endpoints that take no token.  There are two whole paths and two
beginnings that are open, and for a beginning the pieces that follow it may be any. -/
theorem isOpen_of_handled (hopen : isOpen r.path = true) (h : r.arrival = .handled token e) :
    e.IsOpen := by
  have hmem := mem_endpoints_of_endpoint (endpoint_of_handled h).2
  unfold isOpen at hopen
  simp only [Bool.or_eq_true, decide_eq_true_eq, or_assoc] at hopen
  -- two paths and two prefixes; behind each of them there are open endpoints only
  rcases hopen with hhealth | hmetrics | hchannels | hthings
  · have hsegments : r.segments = ["", "healthz"] := by
      unfold Request.segments
      rw [hhealth]
      decide
    rw [hsegments] at hmem
    obtain ⟨-, rfl⟩ := Prod.mk.inj (List.mem_singleton.1 hmem)
    trivial
  · have hsegments : r.segments = ["", "metrics"] := by
      unfold Request.segments
      rw [hmetrics]
      decide
    rw [hsegments] at hmem
    exact absurd hmem List.not_mem_nil
  · obtain ⟨more, hsegments⟩ :=
      segments_of_isPrefixOf (a := "v1") (b := "channels") (by decide) (by decide) hchannels
    rw [hsegments] at hmem
    exact isOpen_of_mem_endpoints (Or.inl rfl) hmem
  · obtain ⟨more, hsegments⟩ :=
      segments_of_isPrefixOf (a := "v1") (b := "things") (by decide) (by decide) hthings
    rw [hsegments] at hmem
    exact isOpen_of_mem_endpoints (Or.inr rfl) hmem

/-- An endpoint that is not open asks for an operation that takes the token it is given, and one
that is open asks for an operation for devices. -/
theorem operation_cases {now : Timestamp} {op : Operation}
    (h : e.operation token now r = .ok (some op)) :
    (¬e.IsOpen ∧ op.token? = some token) ∨ e.IsOpen ∧ op.ForDevices := by
  cases e with
  | health => cases h
  | refresh | identify =>
      cases h
      -- the operation carries the token that the request had
      exact Or.inl ⟨id, rfl⟩
  | authorize | addPolicy | updatePolicy | deletePolicy | listPolicies | createGroup | listGroups
  | enableGroup | disableGroup | registerClient | enableClient | disableClient =>
      obtain ⟨_, -, hop⟩ := Json.of_bind_eq_ok h
      cases hop
      exact Or.inl ⟨id, rfl⟩
  | listMemberships client =>
      obtain ⟨_, -, hrest⟩ := Json.of_bind_eq_ok h
      obtain ⟨_, -, hop⟩ := Json.of_bind_eq_ok hrest
      cases hop
      exact Or.inl ⟨id, rfl⟩
  | accessByKey | accessById =>
      obtain ⟨_, -, hrest⟩ := Json.of_bind_eq_ok h
      obtain ⟨_, -, hop⟩ := Json.of_bind_eq_ok hrest
      cases hop
      exact Or.inr ⟨trivial, trivial⟩
  | identifyThing =>
      obtain ⟨_, -, hop⟩ := Json.of_bind_eq_ok h
      cases hop
      exact Or.inr ⟨trivial, trivial⟩

/-! ## Runs -/

/-- Whether a request presents a token and asks with it for an operation for which the token is
accepted at a time. -/
def Request.Admitted (tokens : TokenIssuer) (now : Timestamp) (r : Request) : Prop :=
  ∃ token e op, bearerToken (r.header "authorization") = .ok token ∧ r.endpoint = .ok e ∧
    e.operation token now r = .ok (some op) ∧ op.token? = some token ∧ op.Admitted tokens now

section Runs

variable {ℓ : Type} {L : EventLog ℓ} {s : Site World ℓ} {tokens : TokenIssuer}

/-- Runs a program of the server. -/
def runOn (L : EventLog ℓ) {α : Type} (p : Program service α) (s : Site World ℓ) :
    α × Site World ℓ :=
  p.run (Site.answer .memory L) s

theorem runOn_bind {α β : Type} (p : Program service α) (f : α → Program service β)
    (s : Site World ℓ) :
    runOn L (p >>= f) s = runOn L (f (runOn L p s).1) (runOn L p s).2 :=
  Program.run_bind (I := service) (Site.answer .memory L) p f s

/-- To read the clock leaves everything to what is done with the time. -/
theorem sameHoldings_clock_bind {α : Type} {f : Nat → Program service α}
    (h : s.SameHoldings (runOn L (f s.backing.clock) s).2) :
    s.SameHoldings (runOn L (step .clock >>= f) s).2 :=
  h

theorem sameHoldings_errorResponse (e : ApiError) (s : Site World ℓ) :
    s.SameHoldings (runOn L (errorResponse e) s).2 := by
  unfold errorResponse
  split
  · exact Site.sameHoldings_of_eq rfl rfl
  · exact Site.sameHoldings_of_eq rfl rfl

/-- The response to an operation leaves what the operation leaves. -/
theorem sameHoldings_operate {serve : Service Procedure} {op : Operation}
    (h : s.SameHoldings (s.run .memory L (serve op)).2) :
    s.SameHoldings (runOn L (operate serve op) s).2 := by
  have hrun : runOn L (serve op).run s = s.run .memory L (serve op) := rfl
  unfold operate
  rw [runOn_bind, hrun]
  cases (s.run .memory L (serve op)).1 with
  | ok answer => exact h
  | error e => exact h.trans (sameHoldings_errorResponse e _)

/-- The token that an endpoint is given was presented, unless the endpoint is open. -/
theorem bearerToken_of_handled (h : r.arrival = .handled token e) (hclosed : ¬e.IsOpen) :
    bearerToken (r.header "authorization") = .ok token := by
  obtain ⟨hcredential, -⟩ := endpoint_of_handled h
  unfold credential at hcredential
  split at hcredential
  · next hopen => exact absurd (isOpen_of_handled hopen h) hclosed
  · exact hcredential

/-- A request that arrives somewhere changes nothing if its token is not accepted.  At a closed
endpoint the token is what was presented, so the engine refuses it; at an open one the operation is
for devices, and it only looks. -/
theorem sameHoldings_handle (c : PublisherConfig)
    (h : ¬r.Admitted tokens (.ofNanos s.backing.clock)) (harrival : r.arrival = .handled token e) :
    s.SameHoldings (runOn L (handle (compose tokens c) token r e) s).2 := by
  unfold handle
  refine sameHoldings_clock_bind ?_
  cases hasked : e.operation token (.ofNanos s.backing.clock) r with
  | error refusal => exact Site.sameHoldings_of_eq rfl rfl
  | ok asked =>
      cases asked with
      | none => exact Site.sameHoldings_of_eq rfl rfl
      | some op =>
          refine sameHoldings_operate ?_
          rcases operation_cases hasked with ⟨hclosed, htoken⟩ | ⟨-, hdevices⟩
          · refine Site.sameHoldings_of_refused c fun hadmitted => h ?_
            exact ⟨token, e, op, bearerToken_of_handled harrival hclosed,
              (endpoint_of_handled harrival).2, hasked, htoken, hadmitted⟩
          · exact Site.sameHoldings_of_forDevices c hdevices s

/-- So does one that does not arrive anywhere. -/
theorem sameHoldings_guarded (c : PublisherConfig)
    (h : ¬r.Admitted tokens (.ofNanos s.backing.clock)) :
    s.SameHoldings (runOn L (guarded (compose tokens c) r) s).2 := by
  unfold guarded
  cases harrival : r.arrival with
  | refused e => exact Site.sameHoldings_of_eq rfl rfl
  | astray status => exact Site.sameHoldings_of_eq rfl rfl
  | handled token e => exact sameHoldings_handle c h harrival

/-- The router counts a request and its outcome, and answers it in between. -/
theorem runOn_route (serve : Service Procedure) (r : Request) (s : Site World ℓ) :
    let counted : Site World ℓ := { s with metrics := s.metrics.countRequest }
    let answered := runOn L (guarded serve r) counted
    runOn L (route serve r) s = (answered.1,
      { answered.2 with metrics := answered.2.metrics.countOutcome answered.1.isSuccess }) := by
  intro counted answered
  unfold route
  rw [runOn_bind]
  exact runOn_bind (guarded serve r) _ counted

/-- **Without a token nothing changes.**  A request that presents no token is refused and arrives
nowhere, unless its path is open; then it arrives at the endpoints for health and for devices or
nowhere.  And a request that presents no token that is accepted for what it asks for leaves the
tables of the store, the event log and the queue before it as they were. -/
theorem unadmitted_changes_nothing (tokens : TokenIssuer) (c : PublisherConfig) (L : EventLog ℓ)
    (s : Site World ℓ) (r : Request) :
    let t := runOn L (route (compose tokens c) r) s
    (∀ e, bearerToken (r.header "authorization") = .error e →
      (isOpen r.path = false →
        r.arrival = .refused e ∧ t.1 = .failure 401 e.message ∧ t.2.backing = s.backing) ∧
      (isOpen r.path = true → ∀ token endpoint, r.arrival = .handled token endpoint →
        endpoint.IsOpen)) ∧
    (¬r.Admitted tokens (.ofNanos s.backing.clock) → s.SameHoldings t.2) := by
  intro t
  have ht : t = _ := runOn_route (L := L) (compose tokens c) r s
  refine ⟨fun e hbearer => ⟨fun hclosed => ?_, fun hopen _ _ => isOpen_of_handled hopen⟩, ?_⟩
  -- without a bearer token nothing is looked up
  · have harrival : r.arrival = .refused e := by
      unfold Request.arrival credential
      rw [hclosed, hbearer]
      rfl
    rw [ht]
    unfold guarded
    rw [harrival]
    exact ⟨rfl, rfl, rfl⟩
  · intro h
    rw [ht]
    have hguarded := sameHoldings_guarded (L := L)
      (s := { s with metrics := s.metrics.countRequest }) c h
    exact hguarded

/-- A request for a new room with some headers. -/
def roomRequest (headers : List (String × String)) : Request :=
  ⟨"POST", "/v1/groups", "", ("content-type", "application/json") :: headers,
    Text.Utf8.encode "\x7b\"name\":\"room\"\x7d"⟩

/-- Without a token no room is asked for, and with a refresh token none is made.  The question of a
device needs no token. -/
theorem unadmitted_changes_nothing_room :
    let s : Site World MemoryLog := .fresh (.empty 60000000000 0) .empty
    let run (r : Request) := runOn MemoryLog.eventLog (route (compose .marked {}) r) s
    let refreshing := roomRequest [("authorization", "Bearer !ann")]
    let device : Request := ⟨"POST", "/v1/channels/hall/access/id", "", [], []⟩
    (roomRequest []).arrival = .refused .missing ∧
      (run (roomRequest [])).1 = .failure 401 "missing authorization header" ∧
      refreshing.arrival = .handled "!ann" .createGroup ∧ s.SameHoldings (run refreshing).2 ∧
      device.arrival = .handled "" (.accessById "hall") ∧ s.SameHoldings (run device).2 := by
  intro s run refreshing device
  have hnothing := fun r => unadmitted_changes_nothing .marked {} MemoryLog.eventLog s r
  obtain ⟨harrival, hresponse, -⟩ := ((hnothing (roomRequest [])).1 .missing rfl).1 (by decide)
  have hrefreshing : refreshing.arrival = .handled "!ann" .createGroup := by decide +kernel
  refine ⟨harrival, hresponse, hrefreshing, (hnothing refreshing).2 ?_, by decide +kernel,
    (hnothing device).2 ?_⟩
  · rintro ⟨token, e, op, hbearer, hendpoint, hasked, -, hadmitted⟩
    obtain rfl : .createGroup = e :=
      Except.ok.inj ((endpoint_of_handled hrefreshing).2.symm.trans hendpoint)
    obtain rfl : "!ann" = token :=
      Except.ok.inj ((bearerToken_of_handled hrefreshing id).symm.trans hbearer)
    obtain ⟨g, -, hop⟩ := Json.of_bind_eq_ok hasked
    cases hop
    obtain ⟨c, hparse, hkind⟩ := hadmitted "!ann" rfl
    cases hparse
    cases hkind
  · rintro ⟨token, -, -, hbearer, -⟩
    cases hbearer

end Runs

end Http

end Gatehouse
