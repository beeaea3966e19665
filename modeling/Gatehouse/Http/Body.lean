import Gatehouse.Entity
import Gatehouse.Http.MediaType
import Gatehouse.Http.Message
import Gatehouse.Json.Schema
import Gatehouse.Policy
import Gatehouse.Text.Utf8

/-!
# Gatehouse.Http.Body — records in the bodies of requests

How the body of a request is read as a record.  Its declared type is looked at first, then its
length, then its grammar, then its shape; each has a status of its own.

The record is read by a `Schema`, as documents are read everywhere, so grammar and shape are told
apart by the reader itself: what is no document is `malformed`, and what is one but not of the
record is a `mismatch`.  The reader stops at the first thing that is wrong, so a text whose shape
fails before its grammar does is refused for its shape.

Of an entity only those fields are read that a caller may choose.  Owners, creators, times and
states are filled in by the service, and what a body says of them is passed over like any unknown
name.
-/

namespace Gatehouse.Http

open Gatehouse.Json Gatehouse.Text Gatehouse.Time

/-! ## Reading -/

/-- Why a part of a request was refused before the service was asked. -/
inductive Refusal where
  | path
  | query
  | mediaType
  | length
  | grammar
  | shape
deriving DecidableEq, Repr

/-- The response to a refused request. -/
def Refusal.response : Refusal → Response
  | path => .text 400 "Invalid URL"
  | query => .text 400 "Failed to deserialize query string"
  | mediaType => .text 415 "Expected request with `Content-Type: application/json`"
  | length => .text 413 "Failed to buffer the request body: length limit exceeded"
  | grammar => .text 400 "Failed to parse the request body as JSON"
  | shape => .text 422 "Failed to deserialize the JSON body into the target type"

/-- The largest number of bytes of a body. -/
def maxBodyLength : Nat := 1024 * 1024

/-- Whether the body of a request is declared to be in JSON. -/
def Request.declaresJson (r : Request) : Bool :=
  ((r.header "content-type").bind MediaType.read).any MediaType.isJson

/-- The record in the body of a request. -/
def Request.record {α : Type} (r : Request) (s : Schema α) : Except Refusal α :=
  if !r.declaresJson then .error .mediaType
  else if maxBodyLength < r.body.length then .error .length
  else match s.ofTokens (tokens (Utf8.glyphs r.body)) with
    | .ok a => .ok a
    | .error .malformed => .error .grammar
    | .error .mismatch => .error .shape

/-! ## Records -/

/-- What is asked for an entity type, an object and an action. -/
structure AuthorizeBody where
  entityType : String
  object : String
  action : String
deriving DecidableEq, Repr

/-- The reader of questions for authorization. -/
def authorizeBody : Schema AuthorizeBody where
  fields := [textField "entity_type" .fault, textField "object" .fault, textField "action" .fault]
  build r := ⟨r.text "entity_type", r.text "object", r.text "action"⟩

/-- The reader of policies at a time; only what a caller may choose is read. -/
def policyBody (now : Timestamp) : Schema Policy where
  fields :=
    [textField "subject" .fault, textField "object" .fault, ⟨"actions", .texts, .default⟩]
  build r := ⟨"", r.text "subject", r.text "object", r.texts "actions", now, now, ""⟩

/-- The reader of keys of policies. -/
def policyKeyBody : Schema PolicyKey where
  fields := [textField "subject" .fault, textField "object" .fault]
  build r := ⟨r.text "subject", r.text "object"⟩

/-- The reader of a record with one text. -/
def textBody (name : String) : Schema String where
  fields := [textField name .fault]
  build r := r.text name

/-- The reader of groups at a time; only what a caller may choose is read. -/
def groupBody (now : Timestamp) : Schema Group where
  fields :=
    [textField "id", textField "name", textField "description", optionalField "parent_id"]
  build r :=
    { id := r.text "id", name := r.text "name", description := r.text "description", owner := ""
      parent := r.text? "parent_id", status := .enabled, createdAt := now, updatedAt := now
      level := 0, path := "" }

/-- The reader of clients at a time; only what a caller may choose is read. -/
def clientBody (now : Timestamp) : Schema Client where
  fields := [textField "id", textField "name", textField "secret"]
  build r :=
    { id := r.text "id", name := r.text "name", owner := "", secret := r.text "secret"
      status := .enabled, createdAt := now, updatedAt := now }

end Gatehouse.Http
