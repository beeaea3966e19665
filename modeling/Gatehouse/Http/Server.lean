import Gatehouse.Http.Bearer
import Gatehouse.Http.Route
import Gatehouse.Service.Layer

/-!
# Gatehouse.Http.Server — how a request is answered

A request is counted, then the caller's credential is looked for, then the path and the method, and
only then is the service asked.  So a request without a credential learns nothing of which paths
exist.  Paths for devices and for health need no credential; the counts themselves are served beside
all this.

Where a request arrives is found out before anything is done for it, and as data: `Request.arrival`
is a function of the request alone, which says whether it is refused, has gone astray, or is handled
by an endpoint with a token.  The programs below it do what belongs to each of the three.  So
whatever is said of requests that lack a credential is said of a value, without a look at the
service.

* `route` counts a request, answers it by where it arrives, and counts how it ended.
* `respond` is the response, from which the body is cut where only the head was asked for.

Which paths are open is asked of the path as it was sent, by prefix, while the router looks at its
pieces.  That both agree on every endpoint of the service is a theorem of
`Gatehouse.Proofs.Http.Admission`.
-/

namespace Gatehouse.Http

open Gatehouse.Time

/-- The target of the remarks on failed requests. -/
def target : String := "corral_server::rest::handlers"

/-- One step into the surroundings of the service. -/
def step (c : ServiceCall) : Program service c.Reply := Program.query (I := service) c

/-! ## Credentials -/

/-- Whether a path needs no credential. -/
def isOpen (path : String) : Bool :=
  path = "/healthz" || path = "/metrics" ||
    "/v1/channels/".toList.isPrefixOf path.toList || "/v1/things/".toList.isPrefixOf path.toList

/-- The token of a request, which is empty where none is needed. -/
def credential (r : Request) : Except CredentialError String :=
  if isOpen r.path then .ok "" else bearerToken (r.header "authorization")

/-! ## Arrivals -/

/-- Where a request arrives: it is refused for want of a credential, its path or its method leads
nowhere, or an endpoint handles it, with a token. -/
inductive Arrival where
  | refused (e : CredentialError)
  | astray (status : Nat)
  | handled (token : String) (e : Endpoint)
deriving DecidableEq, Repr

/-- The endpoint that a request leads to, or the status that says why there is none. -/
def Request.endpoint (r : Request) : Except Nat Endpoint :=
  match endpoints r.segments with
  | [] => .error 404
  | choices =>
    match choices.lookup r.verb with
    | none => .error 405
    | some e => .ok e

/-- Where a request arrives.  Its credential is looked for before its path. -/
def Request.arrival (r : Request) : Arrival :=
  match credential r with
  | .error e => .refused e
  | .ok token =>
    match r.endpoint with
    | .error status => .astray status
    | .ok e => .handled token e

/-! ## Errors -/

/-- The status of an error. -/
def errorStatus : ApiError → Nat
  | .authentication _ => 401
  | .authorization => 403
  | .higherPolicyRank => 403
  | .notFound => 404
  | .malformed _ => 400
  | .invalidEntityType _ => 400
  | .conflict _ => 409
  | .statusAlreadyAssigned => 409
  | .storage _ => 500
  | .cache _ => 500

/-- The response to an error; one of the surroundings is remarked on. -/
def errorResponse (e : ApiError) : Program service Response := do
  if errorStatus e = 500 then
    let _ ← step (.note (.remark .error target "request failed on an internal error"
      [("error", .text e.message)]))
  return .failure (errorStatus e) e.message

/-! ## Requests -/

variable (serve : Service Procedure)

/-- The response of the service to an operation. -/
def operate (op : Operation) : Program service Response := do
  let outcome : Except ApiError op.Answer ← (serve op).run
  match outcome with
  | .ok answer => return answerResponse op answer
  | .error e => errorResponse e

/-- The response of an endpoint to a request with a token. -/
def handle (token : String) (r : Request) (e : Endpoint) : Program service Response := do
  -- records in bodies default to the present time, so the clock is read before the body
  let nanos : Nat ← step .clock
  match e.operation token (.ofNanos nanos) r with
  | .error refusal => return refusal.response
  | .ok none => return healthResponse
  | .ok (some op) => operate serve op

/-- The response to a request, by where it arrives. -/
def guarded (r : Request) : Program service Response :=
  match r.arrival with
  | .refused e => do
    let _ ← step (.note (.authFailure e.message))
    return .failure 401 e.message
  | .astray status => return .bare status
  | .handled token e => handle serve token r e

/-- The response with the counts. -/
def metricsResponse (m : Metrics) : Response :=
  ⟨200, some "text/plain; version=0.0.4; charset=utf-8", .text m.render⟩

/-- The response of the router to a request, which is counted with its outcome. -/
def route (r : Request) : Program service Response := do
  let _ ← step .countRequest
  let response ← guarded serve r
  let _ ← step (.countOutcome response.isSuccess)
  return response

/-- The response to a request, before a mere head is cut down to one. -/
def answer (r : Request) : Program service Response :=
  if r.path = "/metrics" then
    if r.verb = "GET" then do
      let m : Metrics ← step .counts
      return metricsResponse m
    else return .bare 405
  else route serve r

/-- The response to a request. -/
def respond (r : Request) : Program service Response := do
  let response ← answer serve r
  return if r.method = "HEAD" then response.withoutBody else response

end Gatehouse.Http
