import Gatehouse.Hierarchy
import Gatehouse.Service.Call
import Gatehouse.Service.Operation

/-!
# Gatehouse.Service.Engine — how operations are answered

The engine reads the caller out of the token, checks what the caller may do, changes the store and
keeps the caches in step.  An answer comes from a cache where one can give it and from the store
otherwise.  A cache that fails costs time and never changes an answer.

The order of checks is part of what callers see: the token first, then the form of the request, then
rights and existence, and the change last.  An entity and the policy of its owner are two writes;
the key of that policy is checked to be free before the first of them.

A change goes to the store first, and the caches are told afterwards and only if the store has done
it.  A grant puts the policy into the cache, a withdrawal evicts it, and a client that is disabled
is evicted with its connections.  While operations come one after another this keeps every live
entry true.  Two operations that overlap are not kept apart: the step of the one to the cache may
come after both steps of the other, and what that leads to is stated in
`Gatehouse.Proofs.Cache.Concurrency`.

Rights to entities are of three kinds.  Admins have them all.  An owner may change what they own.
All others need a policy with the action in question, and where such a policy is looked for differs:
changes and parents ask for one policy on the object itself (`mayChange`), while `authorize` and the
listing of memberships make a full decision (`decide`), with groups and the policy on every client
in it.  Policies are another matter.  Only its owner may update one, and only within what the owner
holds (`updatePolicy`); adding and deleting take an access token and nothing more.
-/

namespace Gatehouse

open Gatehouse.Time

namespace Engine

open Procedure

/-- The target of the remarks of the engine. -/
def target : String := "corral_server::service::engine"

/-- A remark on a cache that failed. -/
def cacheRemark (message : String) (fields : List (String × FieldValue)) (e : CacheError) :
    Procedure Unit :=
  note (.remark .warn target message (fields ++ [("error", .text e.message)]))

/-- Asks a cache for nothing but its effect; a failure is remarked on. -/
def tryCache (c : CacheCall) (message : String) (fields : List (String × FieldValue)) :
    Procedure Unit := do
  match ← cache c with
  | .ok _ => return ()
  | .error e => cacheRemark message fields e

/-! ## Callers -/

variable (tokens : TokenIssuer)

/-- The claims of a token of the expected kind.  A token that is refused is remarked on, in either
way in which it can be. -/
def claims (token : String) (expected : TokenKind) : Procedure Claims := do
  let time ← now
  match tokens.parse time.seconds token with
  | .error e =>
    note (.authFailure e.message)
    throw (.ofToken e)
  | .ok claims =>
    if claims.kind = expected then return claims
    note (.authFailure "unexpected token kind")
    throw (.authentication s!"{expected.name} token required, got {claims.kind.name}")

/-- The claims of the caller of an operation. -/
def caller (token : String) : Procedure Claims := claims tokens token .access

/-- Whether a policy of a subject on an object grants an action. -/
def holds (subject object action : String) : Procedure Bool := do
  let p : Option Policy ← store (.policy ⟨subject, object⟩)
  return p.any (·.hasAction action)

/-- Whether a caller is an admin, the owner, or holds an action by a policy. -/
def mayChange (claims : Claims) (owner object action : String) : Procedure Bool := do
  if claims.isAdmin then return true
  if owner = claims.subject then return true
  holds claims.subject object action

/-! ## Decisions -/

/-- The question to the store behind a question of a decision. -/
def relation : (c : RelationCall) → Program service (relations.Reply c)
  | .policy key => do
    let reply : Except StorageError (Option Policy) ←
      Program.query (I := service) (.store (.policy key))
    return reply.mapError fun e => .storage e.message
  | .policiesOf subject => do
    let reply : Except StorageError (List Policy) ←
      Program.query (I := service) (.store (.policiesOf subject))
    return reply.mapError fun e => .storage e.message
  | .clientOwner id => do
    let reply : Except StorageError (Option Client) ←
      Program.query (I := service) (.store (.client id))
    return (reply.map fun c => c.map (·.owner)).mapError fun e => .storage e.message
  | .groupOwner id => do
    let reply : Except StorageError (Option Group) ←
      Program.query (I := service) (.store (.group id))
    return (reply.map fun g => g.map (·.owner)).mapError fun e => .storage e.message

/-- A decision on what the store holds. -/
def decide (entityType : EntityType) (subject object action : String) : Procedure Bool :=
  ExceptT.mk do
    let decision : Except DecisionError Bool ←
      (Decision.evaluate entityType subject object action).run.interpret relation
    return decision.mapError .ofDecision

/-- Whether the policy cache knows that an action is granted; the look-up is counted. -/
def cachedAllows (key : PolicyKey) (action : String) : Procedure Bool := do
  let cached : Option Policy ← do
    match ← cache (.policy key) with
    | .ok cached => pure cached
    | .error e =>
      cacheRemark "policy cache lookup failed" [] e
      pure none
  let hit := cached.any (·.hasAction action)
  let _ ← step (.countLookup hit)
  return hit

/-- Remembers a policy. -/
def cachePolicy (p : Policy) : Procedure Unit :=
  tryCache (.putPolicy p) "policy cache update failed" [("key", .text p.key.render)]

/-- Refuses an action unless the caller is granted it. -/
def authorize (token entityType object action : String) : Procedure Unit := do
  let claims ← caller tokens token
  let some entityType := EntityType.ofName? entityType
    | throw (.ofPolicy (.invalidEntityType entityType))
  if object = "" then throw (.malformed "object must not be empty")
  if !entityType.isAction action then
    throw (.malformed (invalidActionMessage entityType action))
  -- a cached policy grants what it grants, but that it does not grant is no reason to refuse
  if ← cachedAllows ⟨claims.subject, object⟩ action then return ()
  if ← decide entityType claims.subject object action then return ()
  throw .authorization

/-! ## Tokens -/

/-- A new pair of tokens, remarked on. -/
def issue (request : IssueRequest) (refreshed : Bool) : Procedure TokenPair := do
  let time ← now
  let pair ← ofExcept .ofToken (tokens.issue time.seconds request)
  note (.audit "token_issued" "token pair issued"
    [("subject_id", .text request.subject), ("refreshed", .flag refreshed)])
  return pair

/-- A new pair of tokens for whoever presents a refresh token. -/
def refresh (token : String) : Procedure TokenPair := do
  let claims ← claims tokens token .refresh
  issue tokens ⟨claims.subject, claims.role, claims.tag⟩ true

/-! ## Policies -/

/-- The actions of a policy as one text. -/
def joinActions (actions : List String) : String := String.intercalate "," actions

/-- The remark on a policy that was added or updated. -/
def policyRemark (event message caller : String) (p : Policy) : Procedure Unit :=
  note (.audit event message
    [("caller", .text caller), ("subject", .text p.subject), ("object", .text p.object),
     ("actions", .text (joinActions p.actions))])

/-- Adds a policy, which the caller then owns. -/
def addPolicy (token : String) (p : Policy) : Procedure Policy := do
  let claims ← caller tokens token
  ofExcept .ofPolicy p.validate
  let time ← now
  let p :=
    { p.normalize with
      owner := claims.subject, createdAt := time, updatedAt := time, updatedBy := claims.subject }
  store (.addPolicy p)
  cachePolicy p
  policyRemark "policy_added" "policy added" claims.subject p
  return p

/-- Replaces the actions of a policy by actions that the caller holds on its object. -/
def updatePolicy (token : String) (p : Policy) : Procedure Policy := do
  let claims ← caller tokens token
  ofExcept .ofPolicy p.validate
  let actions := Policy.normalizeActions p.actions
  -- rank is asked before existence: who may not grant learns nothing of what is granted
  if !claims.isAdmin then
    let own : Option Policy ← store (.policy ⟨claims.subject, p.object⟩)
    if !own.any (·.covers actions) then throw .higherPolicyRank
  let found : Option Policy ← store (.policy p.key)
  let some existing := found | throw .notFound
  if !claims.isAdmin && existing.owner != claims.subject then throw .authorization
  let time ← now
  let updated := { existing with actions, updatedAt := time, updatedBy := claims.subject }
  store (.updatePolicy updated)
  cachePolicy updated
  policyRemark "policy_updated" "policy updated" claims.subject updated
  return updated

/-- Removes a policy, and what the caches remember of it. -/
def deletePolicy (token : String) (key : PolicyKey) : Procedure Unit := do
  let claims ← caller tokens token
  if key.subject = "" ∨ key.object = "" then
    throw (.malformed "subject and object must not be empty")
  store (.deletePolicy key)
  let fields := [("key", FieldValue.text key.render)]
  tryCache (.removePolicy key) "policy cache eviction failed" fields
  -- the policy may have been what connects a client to a channel
  tryCache (.disconnect ⟨key.object, key.subject⟩) "connectivity cache eviction failed" fields
  note (.audit "policy_deleted" "policy deleted"
    [("caller", .text claims.subject), ("subject", .text key.subject),
     ("object", .text key.object)])

/-- A page of policies; who is no admin only sees policies of their own. -/
def listPolicies (token : String) (query : PolicyQuery) : Procedure PolicyPage := do
  let claims ← caller tokens token
  ofExcept .ofPolicy query.validate
  store <| .policyPage <|
    if claims.isAdmin then query else { query with owner := some claims.subject }

/-! ## Connections -/

/-- The id of the enabled client with a secret. -/
def identifyThing (key : String) : Procedure String := do
  if key = "" then throw (.malformed "key must not be empty")
  let cached : Option String ← do
    match ← cache (.clientOf key) with
    | .ok cached => pure cached
    | .error e =>
      cacheRemark "key cache lookup failed" [] e
      pure none
  -- only enabled clients are remembered, so a remembered one need not be looked at
  if let some id := cached then return id
  let found : Option Client ← store (.clientBySecret key)
  let some client := found | throw .notFound
  if client.status ≠ .enabled then throw .authorization
  tryCache (.putClient key client.id) "key cache update failed" [("thing_id", .text client.id)]
  return client.id

/-- Refuses unless a client is enabled and connected to a channel. -/
def canAccessById (channel client : String) : Procedure Unit := do
  let cached : Bool ← do
    match ← cache (.isConnected ⟨channel, client⟩) with
    | .ok cached => pure cached
    | .error e =>
      cacheRemark "connectivity cache lookup failed" [] e
      pure false
  if cached then return ()
  let connection : Option Policy ← store (.policy ⟨client, channel⟩)
  if connection.isNone then throw .authorization
  let found : Option Client ← store (.client client)
  if !found.any (·.status = .enabled) then throw .authorization
  tryCache (.connect ⟨channel, client⟩) "connectivity cache update failed"
    [("channel_id", .text channel), ("thing_id", .text client)]

/-- The id of the client with a secret, if it is connected to a channel. -/
def canAccessByKey (channel key : String) : Procedure String := do
  let client ← identifyThing key
  canAccessById channel client
  return client

/-! ## Entities -/

/-- Refuses if the policy of an owner on an entity exists already. -/
def ensureOwnerSlot (owner object : String) : Procedure Unit := do
  let key : PolicyKey := ⟨owner, object⟩
  let found : Option Policy ← store (.policy key)
  if found.isSome then throw (.conflict key.render)

/-- Grants the owner of a new entity all actions on it. -/
def saveOwnerPolicy (owner object : String) (actions : List String) : Procedure Unit := do
  let time ← now
  let p : Policy := ⟨owner, owner, object, actions, time, time, owner⟩
  store (.addPolicy p)
  cachePolicy p

/-- Refuses a parent that is unknown or that the caller may not add to. -/
def checkParent (claims : Claims) (parent : String) : Procedure Unit := do
  let found : Option Group ← store (.group parent)
  let some parent := found | throw .notFound
  if !(← mayChange claims parent.owner parent.id "g_add") then throw .authorization

/-- Adds a group, which the caller then owns. -/
def createGroup (token : String) (g : Group) : Procedure Group := do
  let claims ← caller tokens token
  if let some parent := g.parent then checkParent claims parent
  let time ← now
  let id ← if g.id = "" then freshId else pure g.id
  let g : Group :=
    { g with
      id, owner := claims.subject, status := .enabled, createdAt := time, updatedAt := time,
      level := 0, path := "" }
  -- if the slot were taken, the group would be stored before its policy is refused
  ensureOwnerSlot claims.subject id
  store (.addGroup g)
  saveOwnerPolicy claims.subject id groupActions
  note (.audit "group_created" "group created"
    [("owner", .text claims.subject), ("group_id", .text id),
     ("parent_id", .text (g.parent.getD ""))])
  return g

/-- Adds a client, which the caller then owns. -/
def registerClient (token : String) (c : Client) : Procedure Client := do
  let claims ← caller tokens token
  let time ← now
  let id ← if c.id = "" then freshId else pure c.id
  let secret ← if c.secret = "" then freshId else pure c.secret
  let c : Client :=
    { c with
      id, secret, owner := claims.subject, status := .enabled, createdAt := time,
      updatedAt := time }
  ensureOwnerSlot claims.subject id
  store (.addClient c)
  saveOwnerPolicy claims.subject id clientActions
  note (.audit "client_registered" "client registered"
    [("owner", .text claims.subject), ("client_id", .text id)])
  return c

/-! ## Listings of groups -/

/-- The groups of a list that a status lets through and that the caller may see. -/
def visibleGroups (claims : Claims) (groups : List Group) (status : Status) :
    Procedure (List Group) := do
  let admitted := groups.filter fun g => status.admits g.status
  if claims.isAdmin then return admitted
  let policies : List Policy ← store (.policiesOf claims.subject)
  let listable := (policies.filter (·.hasAction "g_list")).map (·.object)
  return admitted.filter fun g => g.owner = claims.subject || listable.contains g.id

/-- A page of the groups of a walk, or of all groups. -/
def listGroups (token : String) (query : GroupQuery) : Procedure GroupsPage := do
  let claims ← caller tokens token
  let stored : List Group ← store .groups
  let h := Hierarchy.ofGroups stored
  let groups ← match query.id with
    | some root => match h.walk root query.walkDirection query.level with
      | some groups => pure groups
      | none => throw .notFound
    | none => pure h.all
  let visible ← visibleGroups claims groups query.status
  return .paginate visible query.offset query.effectiveLimit

/-- The groups that some policies are about, as far as a status lets them through. -/
def memberships (status : Status) : List Policy → Procedure (List Group)
  | [] => return []
  | p :: rest => do
    let found : Option Group ← store (.group p.object)
    let groups ← memberships status rest
    match found with
    | some g => return if status.admits g.status then g :: groups else groups
    | none => return groups

/-- A page of the groups that a client is connected to, by id. -/
def listMemberships (token client : String) (query : GroupQuery) : Procedure GroupsPage := do
  let claims ← caller tokens token
  let found : Option Client ← store (.client client)
  if found.isNone then throw .notFound
  if !claims.isAdmin then
    if !(← decide .client claims.subject client "c_list") then throw .authorization
  let policies : List Policy ← store (.policiesOf client)
  let groups ← memberships query.status policies
  let ordered := groups.mergeSort fun a b => a.id ≤ b.id
  return .paginate ordered query.offset query.effectiveLimit

/-! ## Statuses -/

/-- The remark on a status that was changed. -/
def statusRemark (caller entity id : String) (status : Status) : Procedure Unit :=
  note (.audit "status_changed" "status changed"
    [("caller", .text caller), ("entity", .text entity), ("id", .text id),
     ("status", .text status.name)])

/-- Changes the status of a group. -/
def setGroupStatus (token id : String) (status : Status) : Procedure Group := do
  let claims ← caller tokens token
  let found : Option Group ← store (.group id)
  let some group := found | throw .notFound
  if !(← mayChange claims group.owner id "g_update") then throw .authorization
  if group.status = status then throw .statusAlreadyAssigned
  let group : Group ← store (.setGroupStatus id status)
  statusRemark claims.subject "group" id status
  return group

/-- Changes the status of a client; the caches forget a client that is disabled. -/
def setClientStatus (token id : String) (status : Status) : Procedure Client := do
  let claims ← caller tokens token
  let found : Option Client ← store (.client id)
  let some client := found | throw .notFound
  if !(← mayChange claims client.owner id "c_update") then throw .authorization
  if client.status = status then throw .statusAlreadyAssigned
  let client : Client ← store (.setClientStatus id status)
  if status = .disabled then
    let fields := [("client_id", FieldValue.text id)]
    tryCache (.removeClient client.secret) "key cache eviction failed" fields
    tryCache (.disconnectAll id) "connectivity cache eviction failed" fields
  statusRemark claims.subject "client" id status
  return client

/-! ## All operations -/

/-- How the engine answers an operation. -/
def serve : Service Procedure
  | .issue request => issue tokens request false
  | .refresh token => refresh tokens token
  | .identify token => return (← caller tokens token).subject
  | .authorize token entityType object action => authorize tokens token entityType object action
  | .addPolicy token p => addPolicy tokens token p
  | .updatePolicy token p => updatePolicy tokens token p
  | .deletePolicy token key => deletePolicy tokens token key
  | .listPolicies token query => listPolicies tokens token query
  | .canAccessByKey channel key => canAccessByKey channel key
  | .canAccessById channel client => canAccessById channel client
  | .identifyThing key => identifyThing key
  | .createGroup token g => createGroup tokens token g
  | .registerClient token c => registerClient tokens token c
  | .listGroups token query => listGroups tokens token query
  | .listMemberships token client query => listMemberships tokens token client query
  | .enableGroup token id => setGroupStatus tokens token id .enabled
  | .disableGroup token id => setGroupStatus tokens token id .disabled
  | .enableClient token id => setClientStatus tokens token id .enabled
  | .disableClient token id => setClientStatus tokens token id .disabled

end Engine

end Gatehouse
