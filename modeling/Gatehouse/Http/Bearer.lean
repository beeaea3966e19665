import Gatehouse.Text.Blank

/-!
# Gatehouse.Http.Bearer — credentials in a header

A caller presents a token as `Bearer` and the token.  Only this shape is looked at here; whether the
token is genuine is for the service to say.

The scheme is compared letter by letter, case included, and one blank ends it; further blanks belong
to neither side and are dropped.  The three ways in which a header can be wrong are told apart in
the text of the response only: each of them is refused as not authenticated, and before the request
is routed.
-/

namespace Gatehouse.Http

open Gatehouse.Text

/-- Why a header holds no token. -/
inductive CredentialError where
  | missing
  | format
  | empty
deriving DecidableEq, Repr

/-- The text of an error. -/
def CredentialError.message : CredentialError → String
  | missing => "missing authorization header"
  | format => "invalid authorization format"
  | empty => "empty bearer token"

/-- What stands before a token. -/
def scheme : List Char := "Bearer ".toList

/-- The token of a header. -/
def bearerToken : Option String → Except CredentialError String
  | none => .error .missing
  | some header =>
    if scheme.isPrefixOf header.toList then
      match trim (header.toList.drop scheme.length) with
      | [] => .error .empty
      | token => .ok (String.ofList token)
    else .error .format

end Gatehouse.Http
