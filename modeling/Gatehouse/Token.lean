/-!
# Gatehouse.Token — bearer tokens and who issues them

A subject proves who it is by a token.  Tokens come in pairs: an access token for operations and a
refresh token, which is good for the next pair only.  A `TokenIssuer` makes pairs and reads tokens
back; it does not know which kind its caller expects, so the caller compares `Claims.kind` itself.

The service takes its issuer as an argument.  Whatever a token has to be for its claims to be
believed is thus no matter of the service, and what is proved of operations holds for every issuer;
the one that is configured is the signer of `Gatehouse.Token.Signed`.  Both functions of an issuer
take the time, in whole seconds, and neither has a state: a token is valid until it expires, and
nothing revokes it.

A `TokenError` says why there is no token or no claims.  The reasons for which a text is not a token
are a type of their own, `Rejection`, and are only told apart in texts.
-/

namespace Gatehouse

/-! ## What a token says -/

/-- What a token is good for. -/
inductive TokenKind where
  | access
  | refresh
deriving DecidableEq, Repr

namespace TokenKind

/-- The written name of a kind. -/
def name : TokenKind → String
  | access => "access"
  | refresh => "refresh"

/-- The written names, in declared order. -/
def names : List String := ["access", "refresh"]

/-- The kind of a written name. -/
def ofName? (s : String) : Option TokenKind :=
  if s = "access" then some access else if s = "refresh" then some refresh else none

/-- The name of a kind at the beginning of a sentence. -/
def title : TokenKind → String
  | access => "Access"
  | refresh => "Refresh"

end TokenKind

/-- The standing of a subject; an admin is bound neither by ownership nor by policies. -/
inductive Role where
  | user
  | admin
deriving DecidableEq, Repr, Inhabited

namespace Role

/-- The written name of a role. -/
def name : Role → String
  | user => "user"
  | admin => "admin"

/-- The written names, in declared order. -/
def names : List String := ["user", "admin"]

/-- The role of a written name. -/
def ofName? (s : String) : Option Role :=
  if s = "user" then some user else if s = "admin" then some admin else none

end Role

/-- What a token says, with its times in seconds since 1970. -/
structure Claims where
  subject : String
  role : Role
  tag : String
  kind : TokenKind
  issuedAt : Int
  expiresAt : Int
deriving DecidableEq, Repr

/-- Whether the subject of a token is an admin. -/
def Claims.isAdmin (c : Claims) : Bool := c.role = .admin

/-- Asks for a pair of tokens. -/
structure IssueRequest where
  subject : String
  role : Role := .user
  tag : String := ""
deriving DecidableEq, Repr

/-- A pair of tokens in their written form. -/
structure TokenPair where
  access : String
  refresh : String
deriving DecidableEq, Repr

/-- How a token is to be presented. -/
def TokenPair.accessType : String := "Bearer"

/-! ## Errors -/

/-- Why a text is not a valid token. -/
inductive Rejection where
  | notThreeParts
  | encoding
  | json
  | algorithm
  | signature
  | missingExpiry
  | issuer
  | audience
  | issuedAtRange
  | expiryRange
  | other (reason : String)
deriving DecidableEq, Repr

/-- The reason of a rejection. -/
def Rejection.message : Rejection → String
  | notThreeParts => "InvalidToken"
  | encoding => "Base64 error"
  | json => "JSON error"
  | algorithm => "InvalidAlgorithm"
  | signature => "InvalidSignature"
  | missingExpiry => "Missing required claim: exp"
  | issuer => "InvalidIssuer"
  | audience => "InvalidAudience"
  | issuedAtRange => "iat out of range"
  | expiryRange => "exp out of range"
  | other reason => reason

/-- Why a token cannot be issued or is not accepted. -/
inductive TokenError where
  | emptySubject
  | signing (reason : String)
  | expired
  | invalid (reason : Rejection)
deriving DecidableEq, Repr

/-- The text of a token error. -/
def TokenError.message : TokenError → String
  | emptySubject => "token subject must not be empty"
  | signing reason => s!"token signing failed: {reason}"
  | expired => "token expired"
  | invalid reason => s!"invalid token: {reason.message}"

/-- Makes pairs of tokens and reads tokens back, both at a time in seconds since 1970. -/
structure TokenIssuer where
  issue : Int → IssueRequest → Except TokenError TokenPair
  parse : Int → String → Except TokenError Claims

end Gatehouse
