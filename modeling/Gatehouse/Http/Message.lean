import Gatehouse.Json.Value
import Gatehouse.Text.Split

/-!
# Gatehouse.Http.Message — requests and responses

What a request consists of as far as the service looks at it, and what a response consists of.

A request is taken as it was sent.  Nothing of it is decoded before somebody asks: the pieces of the
path keep their escapes, the query is one text, the values of headers may be anything, and the body
is a row of bytes.  What a piece means is for the module that reads it, and so is what happens where
it cannot be read.

A response holds its document as a `Value`, not as a text, so that what is said of it can be said of
the document.
-/

namespace Gatehouse.Http

open Gatehouse.Json Gatehouse.Text

/-- A request.  Path and query are as they were sent, escapes included. -/
structure Request where
  method : String
  path : String
  query : String
  headers : List (String × String)
  body : List UInt8
deriving DecidableEq, Repr

namespace Request

/-- A request for a target, which is a path and perhaps a query; what follows a hash is dropped. -/
def ofTarget (method target : String) (headers : List (String × String)) (body : List UInt8) :
    Request :=
  let (path, query) := splitFirst '?' (splitFirst '#' target.toList).1
  ⟨method, String.ofList path, String.ofList (query.getD []), headers, body⟩

/-- Whether a character may stand in the value of a header that is read as text. -/
def isVisible (c : Char) : Bool := (' ' ≤ c && c ≤ '~') || c = '\t'

/-- The first value of a header, if it can be read as text.  The case of a name does not matter. -/
def header (r : Request) (name : String) : Option String :=
  match r.headers.find? fun h => h.1.toList.map Char.toLower = name.toList with
  | some (_, value) => if value.toList.all isVisible then some value else none
  | none => none

/-- The pieces of the path between slashes.  The first is empty where a path begins with one. -/
def segments (r : Request) : List String := (splitAt '/' r.path.toList).map String.ofList

end Request

/-- What a response holds. -/
inductive Body where
  | none
  | json (v : Value)
  | text (s : String)

/-- A response. -/
structure Response where
  status : Nat
  contentType : Option String
  body : Body

namespace Response

/-- A response with a status and nothing else. -/
def bare (status : Nat) : Response := ⟨status, none, .none⟩

/-- A response in JSON. -/
def json (status : Nat) (v : Value) : Response := ⟨status, some "application/json", .json v⟩

/-- A response in plain text. -/
def text (status : Nat) (s : String) : Response :=
  ⟨status, some "text/plain; charset=utf-8", .text s⟩

/-- A response in JSON that says what was wrong. -/
def failure (status : Nat) (message : String) : Response :=
  json status (.object [("error", .text message)])

/-- Whether a response tells of success. -/
def isSuccess (r : Response) : Bool := 200 ≤ r.status && r.status < 300

/-- A response without what it holds. -/
def withoutBody (r : Response) : Response := { r with body := .none }

end Response

end Gatehouse.Http
