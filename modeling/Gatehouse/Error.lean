import Gatehouse.Cache
import Gatehouse.Decision
import Gatehouse.Store
import Gatehouse.Token

/-!
# Gatehouse.Error — why an operation was refused

One type for everything that an operation can end in other than an answer.  The errors of the parts
of the service become errors of the service here: what a caller may know of them is kept and the
rest is dropped.

Each part has errors of its own, since each can fail in its own ways only: `StorageError`,
`TokenError`, `PolicyError`, `DecisionError`.  The functions `ofStorage`, `ofToken`, `ofPolicy` and
`ofDecision` are where they meet.  That an error of a token becomes one of authentication, whatever
was wrong with the token, is what makes every refused token look alike to a caller in its kind,
while the text still says the reason.  The response that an error has over HTTP is chosen in
`Gatehouse.Http.Response`.
-/

namespace Gatehouse

/-- Why an operation was refused. -/
inductive ApiError where
  | authentication (reason : String)
  | authorization
  | higherPolicyRank
  | notFound
  | malformed (reason : String)
  | invalidEntityType (name : String)
  | conflict (what : String)
  | statusAlreadyAssigned
  | storage (text : String)
  | cache (e : CacheError)
deriving DecidableEq, Repr

namespace ApiError

/-- The text of an error. -/
def message : ApiError → String
  | authentication reason => s!"authentication failed: {reason}"
  | authorization => "unauthorized access"
  | higherPolicyRank => "requested actions exceed the caller's own policy"
  | notFound => "entity not found"
  | malformed reason => s!"malformed request: {reason}"
  | invalidEntityType name => s!"invalid entity type: {name}"
  | conflict what => s!"conflict: {what}"
  | statusAlreadyAssigned => "status already assigned"
  | storage text => s!"storage error: {text}"
  | cache e => s!"cache error: {e.message}"

/-- The error of a store. -/
def ofStorage : StorageError → ApiError
  | .notFound => notFound
  | .conflict what => conflict what
  | .internal text => storage text

/-- The error of an issuer of tokens. -/
def ofToken (e : TokenError) : ApiError := authentication e.message

/-- The error of a policy or of a word that should name an entity type. -/
def ofPolicy : PolicyError → ApiError
  | .invalidEntityType name => invalidEntityType name
  | e => malformed e.message

/-- The error of a decision. -/
def ofDecision : DecisionError → ApiError
  | .invalidAction t a => malformed (DecisionError.invalidAction t a).message
  | .storage text => storage text

end ApiError

end Gatehouse
