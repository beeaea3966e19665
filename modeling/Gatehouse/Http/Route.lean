import Gatehouse.Entity.Document
import Gatehouse.Http.Body
import Gatehouse.Http.Percent
import Gatehouse.Http.Query
import Gatehouse.Policy.Document
import Gatehouse.Service.Operation
import Gatehouse.Token.Document

/-!
# Gatehouse.Http.Route — requests as operations, answers as responses

Every path leads to endpoints by method.  `Endpoint.operation` says which operation of the service a
request to an endpoint asks for, and `answerResponse` how its answer is written.

A request is routed by the pieces of its path as they were sent, before any escape in them is
decoded: an escaped slash is no slash here, and a fixed piece must be spelled out.  Only a piece
that stands for a parameter is decoded, and only once the endpoint is known, so that a path with an
escape that is no text is refused by the endpoint and not by the router.  What is wrong with a
request is found in a fixed order, the path before the query and both before the body.
-/

namespace Gatehouse.Http

open Gatehouse.Json Gatehouse.Time

/-! ## Endpoints -/

/-- Where a request can lead.  A parameter is a piece of the path, as it was sent. -/
inductive Endpoint where
  | health
  | refresh
  | identify
  | authorize
  | addPolicy
  | updatePolicy
  | deletePolicy
  | listPolicies
  | accessByKey (channel : String)
  | accessById (channel : String)
  | identifyThing
  | createGroup
  | listGroups
  | enableGroup (id : String)
  | disableGroup (id : String)
  | registerClient
  | enableClient (id : String)
  | disableClient (id : String)
  | listMemberships (client : String)
deriving DecidableEq, Repr

/-- The endpoints at a path by method; none if the path is unknown.

A parameter takes any piece, the empty one between two slashes too, for what the router of the
service captures may be of length zero: a request to enable the group at `/v1/groups//enable` asks
for the group whose id is empty, and it is the service that does not find it and answers so in JSON,
where a path that leads nowhere has a bare 404.  A slash at the end of a path is a piece more, and
leads nowhere. -/
def endpoints : List String → List (String × Endpoint)
  | ["", "healthz"] => [("GET", .health)]
  | ["", "v1", "tokens", "refresh"] => [("POST", .refresh)]
  | ["", "v1", "identify"] => [("GET", .identify)]
  | ["", "v1", "authorize"] => [("POST", .authorize)]
  | ["", "v1", "policies"] =>
    [("POST", .addPolicy), ("PUT", .updatePolicy), ("DELETE", .deletePolicy),
     ("GET", .listPolicies)]
  | ["", "v1", "channels", id, "access", "key"] => [("POST", .accessByKey id)]
  | ["", "v1", "channels", id, "access", "id"] => [("POST", .accessById id)]
  | ["", "v1", "things", "identify"] => [("POST", .identifyThing)]
  | ["", "v1", "groups"] => [("POST", .createGroup), ("GET", .listGroups)]
  | ["", "v1", "groups", id, "enable"] => [("POST", .enableGroup id)]
  | ["", "v1", "groups", id, "disable"] => [("POST", .disableGroup id)]
  | ["", "v1", "clients"] => [("POST", .registerClient)]
  | ["", "v1", "clients", id, "enable"] => [("POST", .enableClient id)]
  | ["", "v1", "clients", id, "disable"] => [("POST", .disableClient id)]
  | ["", "v1", "clients", id, "memberships"] => [("GET", .listMemberships id)]
  | _ => []

/-- The method by which a request is looked up: asking for the head alone is asking. -/
def Request.verb (r : Request) : String := if r.method = "HEAD" then "GET" else r.method

/-! ## Operations -/

/-- A parameter of a path. -/
def parameter (s : String) : Except Refusal String :=
  match Percent.decodeText? s with
  | some s => .ok s
  | none => .error .path

/-- The query of a request. -/
def Request.form {α : Type} (r : Request) (meaning : Form → Option α) : Except Refusal α :=
  match meaning (Percent.readForm r.query) with
  | some a => .ok a
  | none => .error .query

/-- The operation that a request with a token asks for at a time; health is no operation.  Devices
present no token, so their operations take none. -/
def Endpoint.operation (token : String) (now : Timestamp) (r : Request) :
    Endpoint → Except Refusal (Option Operation)
  | health => return none
  | refresh => return some (.refresh token)
  | identify => return some (.identify token)
  | authorize => do
    let b ← r.record authorizeBody
    return some (.authorize token b.entityType b.object b.action)
  | addPolicy => return some (.addPolicy token (← r.record (policyBody now)))
  | updatePolicy => return some (.updatePolicy token (← r.record (policyBody now)))
  | deletePolicy => return some (.deletePolicy token (← r.record policyKeyBody))
  | listPolicies => return some (.listPolicies token (← r.form Form.policyQuery?))
  | accessByKey channel => do
    let channel ← parameter channel
    return some (.canAccessByKey channel (← r.record (textBody "key")))
  | accessById channel => do
    let channel ← parameter channel
    return some (.canAccessById channel (← r.record (textBody "thing_id")))
  | identifyThing => return some (.identifyThing (← r.record (textBody "key")))
  | createGroup => return some (.createGroup token (← r.record (groupBody now)))
  | listGroups => return some (.listGroups token (← r.form Form.groupQuery?))
  | enableGroup id => return some (.enableGroup token (← parameter id))
  | disableGroup id => return some (.disableGroup token (← parameter id))
  | registerClient => return some (.registerClient token (← r.record (clientBody now)))
  | enableClient id => return some (.enableClient token (← parameter id))
  | disableClient id => return some (.disableClient token (← parameter id))
  | listMemberships client => do
    let client ← parameter client
    return some (.listMemberships token client (← r.form Form.groupQuery?))

/-! ## Responses -/

/-- The response to a request for health. -/
def healthResponse : Response := .json 200 (.object [("status", .text "ok")])

/-- A response that names a client. -/
def thingResponse (id : String) : Response := .json 200 (.object [("thing_id", .text id)])

/-- The response to an operation that was answered. -/
def answerResponse : (op : Operation) → op.Answer → Response
  | .issue _, p => .json 201 (TokenPair.toJson p)
  | .refresh _, p => .json 201 (TokenPair.toJson p)
  | .identify _, id => .json 200 (.object [("id", .text id)])
  | .authorize _ _ _ _, _ => .json 200 (.object [("authorized", .bool true)])
  | .addPolicy _ _, p => .json 201 (Policy.toJson p)
  | .updatePolicy _ _, p => .json 200 (Policy.toJson p)
  | .deletePolicy _ _, _ => .bare 204
  | .listPolicies _ _, p => .json 200 (PolicyPage.toJson p)
  | .canAccessByKey _ _, id => thingResponse id
  | .canAccessById _ client, _ => thingResponse client
  | .identifyThing _, id => thingResponse id
  | .createGroup _ _, g => .json 201 (Group.toJson g)
  | .registerClient _ _, c => .json 201 (Client.toJson c)
  | .listGroups _ _, p => .json 200 (GroupsPage.toJson p)
  | .listMemberships _ _ _, p => .json 200 (GroupsPage.toJson p)
  | .enableGroup _ _, g => .json 200 (Group.toJson g)
  | .disableGroup _ _, g => .json 200 (Group.toJson g)
  | .enableClient _ _, c => .json 200 (Client.toJson c)
  | .disableClient _ _, c => .json 200 (Client.toJson c)

end Gatehouse.Http
