import Gatehouse.Json.Schema
import Gatehouse.Json.Value
import Gatehouse.Token

/-!
# Gatehouse.Token.Document — requests for tokens and pairs in JSON

How a request for a pair of tokens is read and how a pair is written.

A request must name its subject; without a role it is for a user, and without a tag for an empty
one.  With a pair it is said how a token is to be presented, so that a client need not know it.  The
tokens themselves are texts here, and what is in them is the matter of `Gatehouse.Token.Signed`.
-/

namespace Gatehouse

open Gatehouse.Json

/-- The reader of requests for tokens. -/
def IssueRequest.schema : Schema IssueRequest where
  fields :=
    [textField "subject_id" .fault, ⟨"role", .choice Role.names, .default⟩, textField "tag"]
  build r := ⟨r.text "subject_id", r.choice "role" Role.ofName? .user, r.text "tag"⟩

/-- A request for tokens in JSON. -/
def IssueRequest.toJson (r : IssueRequest) : Value :=
  .object [("subject_id", .text r.subject), ("role", .text r.role.name), ("tag", .text r.tag)]

/-- A pair of tokens in JSON. -/
def TokenPair.toJson (p : TokenPair) : Value :=
  .object
    [("access_token", .text p.access), ("refresh_token", .text p.refresh),
     ("access_type", .text TokenPair.accessType)]

end Gatehouse
