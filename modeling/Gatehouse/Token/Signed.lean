import Gatehouse.Crypto.Sha256
import Gatehouse.Json.Shape
import Gatehouse.Json.Value
import Gatehouse.Text.Base64Url
import Gatehouse.Text.Utf8
import Gatehouse.Token

/-!
# Gatehouse.Token.Signed — signed tokens in three parts

A signed token is a header, a payload and a signature, each in base64url, joined by dots.  The
signature is the keyed hash of the first two parts under one secret that access and refresh tokens
share.

* `KeyedSigner.sign` writes a token and refuses a life time that leads out of the calendar.
* `KeyedSigner.parse` reads one.  Nothing of the payload is looked at before the signature agrees.
* `TokenSigner` is a signer with a text for a secret, as it is configured.

A token that was written here has one form, but `parse` takes many more: the header may name any
algorithm as long as it is the right one, fields come in any order, and there may be fields that the
service does not know.  Some of the known ones are looked at even so.  A header with a key in it is
refused if the key is none, although nothing is made of the key; a payload that names an audience is
refused, whoever that is; and a payload is read twice, the second time for its audience and for the
time before which it is not valid, by a reader that minds failures less than the first.  Which texts
come through all this is stated without any of it in `Gatehouse.Proofs.Token.Genuine`.

Signatures are compared as texts.  Since a text is decoded to bytes in one way only, this is the
same as comparing the bytes.
-/

namespace Gatehouse

open Gatehouse.Text Gatehouse.Json Gatehouse.Time

/-! ## The signer -/

/-- A secret of any bytes, the name under which tokens are issued, and their life times in
seconds. -/
structure KeyedSigner where
  key : List UInt8
  issuer : String
  accessTtl : Nat
  refreshTtl : Nat
deriving DecidableEq, Repr

namespace KeyedSigner

/-- The header of every token. -/
def header : Value := .object [("typ", .text "JWT"), ("alg", .text "HS256")]

/-- The payload of a token. -/
def payload (issuer : String) (c : Claims) : Value :=
  .object
    [("iss", .text issuer), ("sub", .text c.subject), ("role", .text c.role.name),
     ("tag", .text c.tag), ("type", .text c.kind.name), ("iat", .integer c.issuedAt),
     ("exp", .integer c.expiresAt)]

/-- The base64url form of a text. -/
def encodePart (s : String) : List Char := Base64Url.encode (Utf8.encode s)

/-- The base64url form of the keyed hash of a text. -/
def signature (key : List UInt8) (text : List Char) : List Char :=
  Base64Url.encode (Crypto.hmac key (Utf8.encode (String.ofList text)))

/-- A signed token. -/
def write (s : KeyedSigner) (c : Claims) : String :=
  let text := encodePart header.render ++ '.' :: encodePart (payload s.issuer c).render
  String.ofList (text ++ '.' :: signature s.key text)

/-! ## Issuing -/

/-- The end of a life time that begins now, if it lies within the calendar. -/
def expiry? (now : Int) (ttl : Nat) : Option Int :=
  let expiry := now + ttl
  if ttl < Word.bound 63 ∧ expiry < Word.bound 63 ∧ Timestamp.inCalendar expiry then some expiry
  else none

/-- The life time of a kind of token. -/
def ttl (s : KeyedSigner) : TokenKind → Nat
  | .access => s.accessTtl
  | .refresh => s.refreshTtl

/-- A token of one kind. -/
def sign (s : KeyedSigner) (now : Int) (r : IssueRequest) (kind : TokenKind) :
    Except TokenError String :=
  match expiry? now (s.ttl kind) with
  | some expiresAt => .ok (s.write ⟨r.subject, r.role, r.tag, kind, now, expiresAt⟩)
  | none => .error (.signing (kind.title ++ " ttl out of range"))

/-- A pair of tokens for a request. -/
def issue (s : KeyedSigner) (now : Int) (r : IssueRequest) : Except TokenError TokenPair := do
  if r.subject = "" then throw .emptySubject
  let access ← s.sign now r .access
  let refresh ← s.sign now r .refresh
  return ⟨access, refresh⟩

/-! ## Reading the parts -/

/-- What stands before and after the last occurrence of a character. -/
def splitLast (c : Char) (s : List Char) : Option (List Char × List Char) :=
  let reversed := s.reverse
  match reversed.dropWhile (· != c) with
  | [] => none
  | _ :: before => some (before.reverse, (reversed.takeWhile (· != c)).reverse)

/-- The algorithms that a header may name. -/
def algorithms : List String :=
  ["HS256", "HS384", "HS512", "ES256", "ES384", "RS256", "RS384", "RS512", "PS256", "PS384",
   "PS512", "EdDSA"]

/-- A field with a value of a shape, null, or no value. -/
def optionalPart (name : String) (shape : Shape := .text) : Field :=
  ⟨name, .optional shape, .omittable⟩

/-- The fields of a header. -/
def headerFields : List Field :=
  [optionalPart "typ", ⟨"alg", .choice algorithms, .fault⟩, optionalPart "cty", optionalPart "jku",
   optionalPart "jwk" .object, optionalPart "kid", optionalPart "x5u", optionalPart "x5c" .texts,
   optionalPart "x5t", optionalPart "x5t#S256"]

/-- The fields of a payload. -/
def payloadFields : List Field :=
  [⟨"iss", .text, .fault⟩, ⟨"sub", .text, .fault⟩, ⟨"role", .choice Role.names, .fault⟩,
   ⟨"tag", .text, .default⟩, ⟨"type", .choice TokenKind.names, .fault⟩,
   ⟨"iat", .integer64, .fault⟩, ⟨"exp", .integer64, .fault⟩]

/-- Reads a part as a record, given what comes of its characters. -/
def readPart (fields : List Field) (part : List Char) :
    Except TokenError (Slots × List Json.Token) :=
  match Base64Url.decode part with
  | none => .error (.invalid .encoding)
  | some bytes =>
    let ts := tokens (Utf8.glyphs bytes)
    match readRecord fields ts with
    | .ok (slots, []) => .ok (slots, ts)
    | _ => .error (.invalid .json)

/-- The issuer and the claims that the fields of a payload spell out. -/
def claimsOf (slots : Slots) : Option (String × Claims) := do
  let slot := slots.get payloadFields
  match slot "iss", slot "sub", slot "role", slot "type", slot "iat", slot "exp" with
  | some (.text issuer), some (.text subject), some (.text role), some (.text kind),
    some (.integer issuedAt), some (.integer expiresAt) =>
    let tag := match slot "tag" with
      | some (.text tag) => tag
      | _ => ""
    let claims : Claims :=
      ⟨subject, ← Role.ofName? role, tag, ← TokenKind.ofName? kind, issuedAt, expiresAt⟩
    return (issuer, claims)
  | _, _, _, _, _, _ => none

/-! ## Values of any shape

A header may hold a key and a payload an audience.  Either is first read as a value of any shape,
whatever it is, and only then is it asked what the value says.  That first reading goes no deeper
than 126 brackets, and it looks at every string and every number. -/

/-- How deeply the brackets of a value nest, after some that are open. -/
def nesting (opened : Nat) : List Json.Token → Nat
  | [] => opened
  | t :: ts => match t with
    | .beginArray | .beginObject => max (opened + 1) (nesting (opened + 1) ts)
    | .endArray | .endObject => nesting (opened - 1) ts
    | _ => max opened (nesting opened ts)

/-- How deeply the brackets of a value may nest. -/
def maxNesting : Nat := 126

/-! ## The key in a header -/

/-- The algorithms that a key may name. -/
def keyAlgorithms : List String := algorithms ++ ["RSA1_5", "RSA-OAEP", "RSA-OAEP-256"]

/-- The fields that every key may have, with the shape of the algorithm among them. -/
def commonKeyFields (algorithm : Shape) : List Field :=
  [optionalPart "use", optionalPart "key_ops" .texts, optionalPart "alg" algorithm,
   optionalPart "kid", optionalPart "x5u", optionalPart "x5c" .texts, optionalPart "x5t",
   optionalPart "x5t#S256"]

/-- The fields of each kind of key: two points of a curve, an exponent and its modulus, bytes, and
one point of a curve. -/
def keyKinds : List (List Field) :=
  let kind (name : String) : Field := ⟨"kty", .choice [name], .fault⟩
  let curve : Field := ⟨"crv", .choice ["P-256", "P-384", "P-521", "Ed25519"], .fault⟩
  let text (name : String) : Field := ⟨name, .text, .fault⟩
  [[kind "EC", curve, text "x", text "y"], [kind "RSA", text "n", text "e"],
   [kind "oct", text "k"], [kind "OKP", curve, text "x"]]

/-- The slots of a record, if the tokens are one and no more. -/
def slots? (fields : List Field) (ts : List Json.Token) : Option Slots :=
  match readRecord fields ts with
  | .ok (slots, []) => some slots
  | _ => none

/-- The tokens of a name that holds an empty object. -/
def hollowTokens (name : String) : List Json.Token :=
  [.beginObject, .text (.sound name), .colon, .beginObject, .endObject, .endObject]

/-- Whether an object has the fields that every key may have.  Its algorithm may also be a name that
holds an empty object. -/
def hasCommonFields (ts : List Json.Token) : Bool :=
  (slots? (commonKeyFields (.choice keyAlgorithms)) ts).isSome ||
    (slots? (commonKeyFields .object) ts).any fun slots =>
      keyAlgorithms.any fun name =>
        slots.get (commonKeyFields .object) "alg" = some (.object (hollowTokens name))

/-- Whether an object is a key: every word of it can be read, and it has the fields of a key of some
kind. -/
def isKey (ts : List Json.Token) : Bool :=
  nesting 0 ts ≤ maxNesting && ts.all (·.stop?.isNone) && hasCommonFields ts &&
    keyKinds.any fun fields => (slots? fields ts).isSome

/-- The algorithm that a header names. -/
def readHeader (part : List Char) : Except TokenError String := do
  let (slots, _) ← readPart headerFields part
  match slots.get headerFields "alg", slots.get headerFields "jwk" with
  | some (.text alg), some (.object ts) => if isKey ts then return alg else throw (.invalid .json)
  | some (.text alg), _ => return alg
  | _, _ => throw (.invalid .json)

/-! ## The audience of a payload

A token for somebody else names an audience, and any audience is somebody else.  A value that is
neither a string nor a list of strings names none.

The audience, and the time before which a token is not valid, are read once more after the claims,
by a reader that takes a failure in either of them for an answer and goes on where it stands.  That
is behind the value if the failure showed at the end of a word that only closing brackets follow,
since each array or object that is given up still takes its closing bracket if that is next.
Anywhere else the reader finds no comma and no closing bracket where it must find one, and the
payload is refused; within a string it would take the rest of the string for members and, quotes
being even in number, run into the end of the text within a string. -/

/-- The members of an object, each with the tokens of its value; there is one at most for each unit
of fuel. -/
def membersOf : Nat → List Json.Token → List (String × List Json.Token)
  | 0, _ => []
  | fuel + 1, ts =>
    match ts with
    | .beginObject :: ts | .comma :: ts =>
      match ts with
      | .text (.sound name) :: .colon :: ts =>
        match skipValue ts with
        | .ok (_, rest) => (name, ts.take (ts.length - rest.length)) :: membersOf fuel rest
        | .error _ => []
      | _ => []
    | _ => []

/-- Whether a token closes an array or an object. -/
def isClosing (t : Json.Token) : Bool := t == .endArray || t == .endObject

/-- Whether a reader that looks at every word of a value stands behind it at last, be it that no
word is refused, be it that the first one that is refused is so at its end and only closing brackets
follow. -/
def endsBehind : List Json.Token → Bool
  | [] => true
  | t :: ts => match t.stop? with
    | none => endsBehind ts
    | some .behind => ts.all isClosing
    | some .within => false

/-- What the audience of a payload comes to. -/
inductive Audience where
  | unnamed
  | named
  | unreadable
deriving DecidableEq, Repr

/-- The audience of a value. -/
def Audience.ofTokens : List Json.Token → Audience
  | [.text (.sound _)] => .named
  | ts =>
    if maxNesting < nesting 0 ts ∨ !endsBehind ts then .unreadable
    else match readTexts ts with
      | .ok _ => .named
      | .error _ => .unnamed

/-- Whether the time before which a token is not valid can be passed over.  Its reader takes the
opening bracket of an array or an object, and nothing of what is in it. -/
def isPassable : List Json.Token → Bool
  | [.beginArray, .endArray] | [.beginObject, .endObject] => true
  | .beginArray :: _ | .beginObject :: _ => false
  | ts => endsBehind ts

/-- The audience of a payload. -/
def audienceOf (ts : List Json.Token) : Audience :=
  let members := membersOf (ts.length + 1) ts
  let valuesOf (name : String) := (members.filter (·.1 = name)).map (·.2)
  match valuesOf "aud", valuesOf "nbf" with
  | audiences, starts =>
    if 1 < audiences.length ∨ 1 < starts.length ∨ !starts.all isPassable ∨
        ts.head? ≠ some .beginObject then .unreadable
    else match audiences with
      | value :: _ => .ofTokens value
      | [] => .unnamed

/-! ## Parsing -/

/-- Checks what a payload says at a time, and gives its claims. -/
def checkClaims (s : KeyedSigner) (now : Int) (issuer : String) (c : Claims) (audience : Audience) :
    Except TokenError Claims :=
  if audience = .unreadable then throw (.invalid .json)
  else if c.expiresAt < 0 then throw (.invalid .missingExpiry)
  else if c.expiresAt < now then throw .expired
  else if issuer ≠ s.issuer then throw (.invalid .issuer)
  else if audience = .named then throw (.invalid .audience)
  else if c.subject = "" then throw .emptySubject
  else if ¬ Timestamp.inCalendar c.issuedAt then throw (.invalid .issuedAtRange)
  else if ¬ Timestamp.inCalendar c.expiresAt then throw (.invalid .expiryRange)
  else return c

/-- The three parts of a token: header, payload and signature. -/
def split? (token : List Char) : Option (List Char × List Char × List Char) := do
  let (text, signature) ← splitLast '.' token
  let (header, payload) ← splitLast '.' text
  return (header, payload, signature)

/-- The claims of a genuine token at a time. -/
def parse (s : KeyedSigner) (now : Int) (token : String) : Except TokenError Claims := do
  let some (header, payload, signature) := split? token.toList
    | throw (.invalid .notThreeParts)
  let algorithm ← readHeader header
  if algorithm ≠ "HS256" then throw (.invalid .algorithm)
  if signature ≠ KeyedSigner.signature s.key (header ++ '.' :: payload) then
    throw (.invalid .signature)
  let (slots, ts) ← readPart payloadFields payload
  match claimsOf slots with
  | some (issuer, claims) => s.checkClaims now issuer claims (audienceOf ts)
  | none => throw (.invalid .json)

end KeyedSigner

/-! ## Secrets that are texts -/

/-- A signer as it is configured: its secret is a text, whose bytes are the key. -/
structure TokenSigner where
  secret : String
  issuer : String
  accessTtl : Nat
  refreshTtl : Nat
deriving DecidableEq, Repr

namespace TokenSigner

/-- The signer with the bytes of its secret. -/
def keyed (s : TokenSigner) : KeyedSigner :=
  ⟨Utf8.encode s.secret, s.issuer, s.accessTtl, s.refreshTtl⟩

/-- The life time of a kind of token. -/
def ttl (s : TokenSigner) (kind : TokenKind) : Nat := s.keyed.ttl kind

/-- A signed token. -/
def write (s : TokenSigner) (c : Claims) : String := s.keyed.write c

/-- A pair of tokens for a request. -/
def issue (s : TokenSigner) (now : Int) (r : IssueRequest) : Except TokenError TokenPair :=
  s.keyed.issue now r

/-- The claims of a genuine token at a time. -/
def parse (s : TokenSigner) (now : Int) (token : String) : Except TokenError Claims :=
  s.keyed.parse now token

/-- The signer as an issuer of tokens. -/
def toIssuer (s : TokenSigner) : TokenIssuer := ⟨s.issue, s.parse⟩

end TokenSigner

end Gatehouse
