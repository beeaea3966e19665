import Gatehouse.Proofs.Json.Schema
import Gatehouse.Proofs.Text.Base64Url
import Gatehouse.Proofs.Text.Utf8
import Gatehouse.Proofs.Token.Audience
import Gatehouse.Proofs.Token.Key

/-!
# Gatehouse.Proofs.Token.Genuine — the tokens that are accepted

A token is three parts joined by dots: a header, a payload and a signature over both.  The parser
takes them apart from the end, reads the header, compares the signature, reads the payload, and then
checks the claims.  What comes out of that as a property of the token is not a list of checks but
the following.

A token carries some claims if it is signed under a header that names the algorithm and its payload
says them (`KeyedSigner.Carries`); what it carries is what is checked (`parse_of_carries`,
`carries_of_parse`).  It is genuine if these claims can be accepted, and what is required of the
payload beyond them is a parameter (`KeyedSigner.Genuine`).  What is proper to keys and audiences,
which are not claims but can make a token unreadable, is in `Proofs.Token.Key` and
`Proofs.Token.Audience`.

* `parse_genuine` : what is parsed is what is genuine and names nobody else, until it expires; and
  what is not signed is invalid whatever it says.
* `parse_unaudienced` : to have no audience is not enough.  Each of the payloads there is genuine in
  every other respect, and is refused.
-/

namespace Gatehouse

open Gatehouse.Text Gatehouse.Json Gatehouse.Time

/-! ## Names -/

/-- Of two values that go by different names, each is read from its own and from no other. -/
theorem ite_name_eq_some_iff {α : Type} (name : α → String) (a b : α) (hne : name b ≠ name a)
    (hall : ∀ c, c = a ∨ c = b) {s : String} {c : α} :
    (if s = name a then some a else if s = name b then some b else none) = some c ↔
      s = name c := by
  constructor
  · intro h
    split at h
    · next hname =>
      cases h
      exact hname
    · split at h
      · next hname =>
        cases h
        exact hname
      · cases h
  · rintro rfl
    rcases hall c with rfl | rfl
    · exact if_pos rfl
    · exact (if_neg hne).trans (if_pos rfl)

/-- A role is read from its name only. -/
theorem Role.ofName?_eq_some_iff {s : String} {r : Role} :
    Role.ofName? s = some r ↔ s = r.name :=
  ite_name_eq_some_iff Role.name user admin (by decide) fun r => by cases r <;> decide

/-- A kind of token is read from its name only. -/
theorem TokenKind.ofName?_eq_some_iff {s : String} {k : TokenKind} :
    TokenKind.ofName? s = some k ↔ s = k.name :=
  ite_name_eq_some_iff TokenKind.name access refresh (by decide) fun k => by cases k <;> decide

namespace KeyedSigner

/-! ## Three parts -/

/-- What splits at the last occurrence of a character has none of it in its last part. -/
theorem splitLast_eq_some_iff {c : Char} {s before after : List Char} :
    splitLast c s = some (before, after) ↔ s = before ++ c :: after ∧ c ∉ after := by
  constructor
  · intro h
    unfold splitLast at h
    dsimp only at h
    split at h
    · cases h
    · next d rest hdrop =>
      cases h
      -- from the end, what is dropped is free of `c`, and what is left begins with it
      have hd : d = c := by
        have hhead := List.head?_dropWhile_not (· != c) s.reverse
        rw [hdrop] at hhead
        simpa using hhead
      have hreverse : s.reverse.takeWhile (· != c) ++ d :: rest = s.reverse := by
        rw [← hdrop]
        exact List.takeWhile_append_dropWhile
      constructor
      · calc s = s.reverse.reverse := (List.reverse_reverse s).symm
          _ = (s.reverse.takeWhile (· != c) ++ d :: rest).reverse := by rw [hreverse]
          _ = _ := by rw [hd]; simp
      · intro hmem
        have hne := List.all_eq_true.1 List.all_takeWhile c (List.mem_reverse.1 hmem)
        simp at hne
  · rintro ⟨rfl, hafter⟩
    have hne : ∀ d ∈ after.reverse, (d != c) = true := by
      intro d hd
      rw [bne_iff_ne]
      rintro rfl
      exact hafter (List.mem_reverse.1 hd)
    have hreverse : (before ++ c :: after).reverse = after.reverse ++ c :: before.reverse := by simp
    have hstop : (c != c) = false := bne_self_eq_false c
    unfold splitLast
    dsimp only
    rw [hreverse, List.dropWhile_append_of_pos hne, List.takeWhile_append_of_pos hne,
      List.dropWhile_cons_of_neg (by rw [hstop]; exact Bool.false_ne_true),
      List.takeWhile_cons_of_neg (by rw [hstop]; exact Bool.false_ne_true)]
    simp

/-- A token splits at its last two dots. -/
theorem split?_eq_some_iff {token header payload signature : List Char} :
    split? token = some (header, payload, signature) ↔
      token = (header ++ '.' :: payload) ++ '.' :: signature ∧ '.' ∉ payload ∧ '.' ∉ signature := by
  unfold split?
  simp only [Option.bind_eq_bind, Option.bind_eq_some_iff, Prod.exists, splitLast_eq_some_iff]
  constructor
  · rintro ⟨text, signature', ⟨rfl, hsignature⟩, header', payload', ⟨rfl, hpayload⟩, h⟩
    cases h
    exact ⟨rfl, hpayload, hsignature⟩
  · rintro ⟨rfl, hpayload, hsignature⟩
    exact ⟨_, _, ⟨rfl, hsignature⟩, _, _, ⟨rfl, hpayload⟩, rfl⟩

/-! ## What the parts say -/

/-- Whether bytes are a JSON text of a document. -/
def WrittenAs (d : Document) (bytes : List UInt8) : Prop :=
  Json.tokens (Utf8.glyphs bytes) = d.tokens

/-- Whether a document is a header that names an algorithm, and holds no object in the place of its
key that is none. -/
def HeaderNames (d : Document) (algorithm : String) : Prop :=
  ∃ slots, IsRecord headerFields d slots ∧ slots.get headerFields "alg" = some (.text algorithm) ∧
    ∀ key : Document, slots.get headerFields "jwk" = some (.object key.tokens) → IsKey key

/-- Whether the members of a payload say who issued it and some claims: each member that they are
read from occurs once and has the type of its claim, and only a tag may be missing, which is empty
then. -/
structure Says (members : List (String × Document)) (issuer : String) (c : Claims) : Prop where
  iss : Field.SpelledBy ⟨"iss", .text, .fault⟩ members (some (.text issuer))
  sub : Field.SpelledBy ⟨"sub", .text, .fault⟩ members (some (.text c.subject))
  role : Field.SpelledBy ⟨"role", .choice Role.names, .fault⟩ members (some (.text c.role.name))
  tag : Field.SpelledBy ⟨"tag", .text, .default⟩ members (some (.text c.tag)) ∨
    Field.SpelledBy ⟨"tag", .text, .default⟩ members none ∧ c.tag = ""
  kind : Field.SpelledBy ⟨"type", .choice TokenKind.names, .fault⟩ members
    (some (.text c.kind.name))
  iat : Field.SpelledBy ⟨"iat", .integer64, .fault⟩ members (some (.integer c.issuedAt))
  exp : Field.SpelledBy ⟨"exp", .integer64, .fault⟩ members (some (.integer c.expiresAt))

theorem headerFields_nodup : (headerFields.map Field.name).Nodup := by decide

theorem payloadFields_nodup : (payloadFields.map Field.name).Nodup := by decide

/-- A part is read as a record if it is the encoded form of a JSON text of one. -/
theorem readPart_eq_ok_iff {fields : List Field} (hnodup : (fields.map Field.name).Nodup)
    {part : List Char} {slots : Slots} {ts : List Json.Token} :
    readPart fields part = .ok (slots, ts) ↔ ∃ bytes d, part = Base64Url.encode bytes ∧
      WrittenAs d bytes ∧ IsRecord fields d slots ∧ ts = d.tokens := by
  constructor
  · intro h
    unfold readPart at h
    split at h
    · cases h
    · next bytes hdecode =>
      dsimp only at h
      split at h
      · next slots' hread =>
        cases h
        -- nothing may follow the record
        obtain ⟨d, hd, hrecord⟩ := (readRecord_eq_ok_iff hnodup).1 hread
        rw [List.append_nil] at hd
        exact ⟨bytes, d, Base64Url.decode_eq_some_iff.1 hdecode, hd, hrecord, hd⟩
      · cases h
  · rintro ⟨bytes, d, rfl, hwritten, hrecord, rfl⟩
    have hread : readRecord fields d.tokens = .ok (slots, []) :=
      (readRecord_eq_ok_iff hnodup).2 ⟨d, (List.append_nil _).symm, hrecord⟩
    unfold readPart
    rw [Base64Url.decode_encode]
    dsimp only
    rw [hwritten, hread]

/-- An object in a slot has been kept with the tokens of a document. -/
theorem exists_key_of_get {d : Document} {slots : Slots} (hrecord : IsRecord headerFields d slots)
    {ts : List Json.Token} (hget : slots.get headerFields "jwk" = some (.object ts)) :
    ∃ key : Document, ts = key.tokens := by
  obtain ⟨f, -, -, e, hspells⟩ := hrecord.exists_spells hget
  obtain ⟨members, -, hts⟩ := hspells.eq_object
  exact ⟨e, hts⟩

theorem readHeader_eq_ok_iff {part : List Char} {algorithm : String} :
    readHeader part = .ok algorithm ↔ ∃ bytes d, part = Base64Url.encode bytes ∧
      WrittenAs d bytes ∧ HeaderNames d algorithm := by
  have hpart : ∀ slots ts, readPart headerFields part = .ok (slots, ts) ↔ _ :=
    fun _ _ => readPart_eq_ok_iff headerFields_nodup
  constructor
  · intro h
    obtain ⟨⟨slots, ts⟩, hread, hslots⟩ := of_bind_eq_ok h
    obtain ⟨bytes, d, hbytes, hwritten, hrecord, -⟩ := (hpart slots ts).1 hread
    refine ⟨bytes, d, hbytes, hwritten, slots, hrecord, ?_⟩
    dsimp only at hslots
    -- an object in the place of the key has to be one, and nothing else is asked of it
    split at hslots
    · next alg key halg hjwk =>
      split at hslots
      · next hkey =>
        cases hslots
        refine ⟨halg, fun key' hjwk' => ?_⟩
        rw [hjwk] at hjwk'
        cases hjwk'
        exact (isKey_tokens_iff key').1 hkey
      · cases hslots
    · next alg halg hnone =>
      cases hslots
      exact ⟨halg, fun key hjwk => absurd hjwk (hnone key.tokens)⟩
    · cases hslots
  · rintro ⟨bytes, d, hbytes, hwritten, slots, hrecord, halg, hkeys⟩
    unfold readHeader
    rw [(hpart slots d.tokens).2 ⟨bytes, d, hbytes, hwritten, hrecord, rfl⟩]
    simp only [bind, Except.bind, halg]
    split
    · next alg ts hslot hjwk =>
      cases hslot
      obtain ⟨key, rfl⟩ := exists_key_of_get hrecord hjwk
      rw [if_pos ((isKey_tokens_iff key).2 (hkeys key hjwk))]
      rfl
    · next hslot _ =>
      cases hslot
      rfl
    · next hother _ => exact (hother _ rfl).elim

/-- The slots of a payload that says some claims. -/
def slotsOf (issuer : String) (tag : Option String) (c : Claims) : Slots :=
  [some (.text issuer), some (.text c.subject), some (.text c.role.name), tag.map .text,
    some (.text c.kind.name), some (.integer c.issuedAt), some (.integer c.expiresAt)]

theorem claimsOf_slotsOf (issuer : String) {tag : Option String} {c : Claims}
    (htag : tag.getD "" = c.tag) : claimsOf (slotsOf issuer tag c) = some (issuer, c) := by
  have hrole : Role.ofName? c.role.name = some c.role := Role.ofName?_eq_some_iff.2 rfl
  have hkind : TokenKind.ofName? c.kind.name = some c.kind := TokenKind.ofName?_eq_some_iff.2 rfl
  have hclaims : claimsOf (slotsOf issuer tag c) = (do
      let role ← Role.ofName? c.role.name
      let kind ← TokenKind.ofName? c.kind.name
      return (issuer, ⟨c.subject, role, tag.getD "", kind, c.issuedAt, c.expiresAt⟩)) := by
    cases tag with | none | some => rfl
  rw [hclaims, hrole, hkind, htag]
  rfl

/-- What is read as claims is what the members of the payload say. -/
theorem says_of_claimsOf {members : List (String × Document)} {slots : Slots} {issuer : String}
    {c : Claims} (hrecord : IsRecord payloadFields (.ofMembers members) slots)
    (hclaims : claimsOf slots = some (issuer, c)) : Says members issuer c := by
  obtain ⟨-, hspelled, -⟩ := isRecord_ofMembers_iff.1 hrecord
  have hfield : ∀ f ∈ payloadFields, ∀ slot, slots.get payloadFields f.name = slot →
      f.SpelledBy members slot := by
    rintro f hf slot rfl
    exact hspelled f hf
  unfold claimsOf at hclaims
  dsimp only at hclaims
  split at hclaims
  · next hiss hsub hrole hkind hiat hexp =>
    simp only [Option.bind_eq_bind, Option.bind_eq_some_iff] at hclaims
    obtain ⟨role, hrolename, kind, hkindname, hclaims⟩ := hclaims
    cases hclaims
    obtain rfl := Role.ofName?_eq_some_iff.1 hrolename
    obtain rfl := TokenKind.ofName?_eq_some_iff.1 hkindname
    refine ⟨hfield _ (by decide) _ hiss, hfield _ (by decide) _ hsub,
      hfield _ (by decide) _ hrole, ?_, hfield _ (by decide) _ hkind,
      hfield _ (by decide) _ hiat, hfield _ (by decide) _ hexp⟩
    -- the tag is the one slot that may be free
    have htag := hfield ⟨"tag", .text, .default⟩ (by decide) _ rfl
    cases hslot : slots.get payloadFields "tag" with
    | none =>
        rw [hslot] at htag
        exact Or.inr ⟨htag, rfl⟩
    | some v =>
        rw [hslot] at htag
        obtain ⟨d, hd, hspells⟩ := htag
        cases hspells with
        | text s => exact Or.inl ⟨_, hd, .text s⟩
  · cases hclaims

/-- Members that say some claims are a record of their slots. -/
theorem Says.isRecord {members : List (String × Document)} {issuer : String} {c : Claims}
    (h : Says members issuer c) (tag : Option String)
    (htag : Field.SpelledBy ⟨"tag", .text, .default⟩ members (tag.map .text)) :
    IsRecord payloadFields (.ofMembers members) (slotsOf issuer tag c) := by
  refine isRecord_ofMembers_iff.2 ⟨rfl, ?_, ?_⟩
  · intro f hf
    simp only [payloadFields, List.mem_cons, List.not_mem_nil, or_false] at hf
    rcases hf with rfl | rfl | rfl | rfl | rfl | rfl | rfl
    · exact h.iss
    · exact h.sub
    · exact h.role
    · exact htag
    · exact h.kind
    · exact h.iat
    · exact h.exp
  · intro f hf hmissing
    simp only [payloadFields, List.mem_cons, List.not_mem_nil, or_false] at hf
    rcases hf with rfl | rfl | rfl | rfl | rfl | rfl | rfl
    · exact nofun
    · exact nofun
    · exact nofun
    · cases hmissing
    · exact nofun
    · exact nofun
    · exact nofun

/-- The claims of a payload are those that it says. -/
theorem claimsOf_iff {members : List (String × Document)} {issuer : String} {c : Claims} :
    (∃ slots, IsRecord payloadFields (.ofMembers members) slots ∧
      claimsOf slots = some (issuer, c)) ↔ Says members issuer c := by
  constructor
  · rintro ⟨slots, hrecord, hclaims⟩
    exact says_of_claimsOf hrecord hclaims
  · intro h
    rcases h.tag with htag | ⟨htag, hempty⟩
    · exact ⟨_, h.isRecord (some c.tag) htag, claimsOf_slotsOf issuer rfl⟩
    · exact ⟨_, h.isRecord none htag, claimsOf_slotsOf issuer hempty.symm⟩

theorem readPart_error {fields : List Field} {part : List Char} {e : TokenError}
    (h : readPart fields part = .error e) : ∃ reason, e = .invalid reason := by
  unfold readPart at h
  split at h
  · cases h
    exact ⟨_, rfl⟩
  · dsimp only at h
    split at h
    · cases h
    · cases h
      exact ⟨_, rfl⟩

/-- A header that is not read is invalid. -/
theorem readHeader_error {part : List Char} {e : TokenError} (h : readHeader part = .error e) :
    ∃ reason, e = .invalid reason := by
  unfold readHeader at h
  cases hread : readPart headerFields part with
  | error e' =>
      rw [hread] at h
      cases h
      exact readPart_error hread
  | ok r =>
      rw [hread] at h
      simp only [bind, Except.bind] at h
      split at h
      · split at h
        · cases h
        · cases h
          exact ⟨_, rfl⟩
      · cases h
      · cases h
        exact ⟨_, rfl⟩

/-! ## Checks -/

theorem of_ite_throw {α : Type} {p : Prop} [Decidable p] {e : TokenError}
    {x : Except TokenError α} {a : α} (h : (if p then throw e else x) = .ok a) :
    ¬ p ∧ x = .ok a := by
  split at h
  · cases h
  · next hp => exact ⟨hp, h⟩

/-- The claims that pass every check. -/
theorem checkClaims_eq_ok_iff {s : KeyedSigner} {now : Int} {issuer : String} {c' c : Claims}
    {audience : Audience} : s.checkClaims now issuer c' audience = .ok c ↔
      c' = c ∧ audience = .unnamed ∧ 0 ≤ c.expiresAt ∧ now ≤ c.expiresAt ∧ issuer = s.issuer ∧
        c.subject ≠ "" ∧ Timestamp.inCalendar c.issuedAt = true ∧
          Timestamp.inCalendar c.expiresAt = true := by
  constructor
  · intro h
    -- eight checks, in the order in which they are made
    obtain ⟨hreadable, h⟩ := of_ite_throw h
    obtain ⟨hsign, h⟩ := of_ite_throw h
    obtain ⟨htime, h⟩ := of_ite_throw h
    obtain ⟨hissuer, h⟩ := of_ite_throw h
    obtain ⟨hnamed, h⟩ := of_ite_throw h
    obtain ⟨hsubject, h⟩ := of_ite_throw h
    obtain ⟨hiat, h⟩ := of_ite_throw h
    obtain ⟨hexp, h⟩ := of_ite_throw h
    cases h
    refine ⟨rfl, ?_, by omega, by omega, not_not.1 hissuer, hsubject, not_not.1 hiat,
      not_not.1 hexp⟩
    cases audience with
    | unnamed => rfl
    | named => exact absurd rfl hnamed
    | unreadable => exact absurd rfl hreadable
  · rintro ⟨rfl, rfl, hsign, htime, rfl, hsubject, hiat, hexp⟩
    unfold checkClaims
    rw [if_neg nofun, if_neg (by omega), if_neg (by omega), if_neg (not_not.2 rfl), if_neg nofun,
      if_neg hsubject, if_neg (not_not.2 hiat), if_neg (not_not.2 hexp)]
    rfl

/-! ## Tokens -/

/-- Whether the last part of a token is the keyed hash of what stands before it. -/
def Signed (s : KeyedSigner) (token : String) : Prop :=
  ∃ header payload, token.toList =
    (header ++ '.' :: payload) ++ '.' :: signature s.key (header ++ '.' :: payload)

/-- Whether a token is signed, its header names the algorithm, and its payload is an object of some
members that say who issued it and some claims. -/
def Carries (s : KeyedSigner) (token : String) (members : List (String × Document))
    (issuer : String) (c : Claims) : Prop :=
  ∃ (headerBytes payloadBytes : List UInt8) (header : Document),
    let text := Base64Url.encode headerBytes ++ '.' :: Base64Url.encode payloadBytes
    token.toList = text ++ '.' :: signature s.key text ∧
    WrittenAs header headerBytes ∧ HeaderNames header "HS256" ∧
    WrittenAs (.ofMembers members) payloadBytes ∧ Says members issuer c

/-- Whether a token carries some claims and is genuine: it names the issuer of the signer and a
subject, its time of expiry is not negative, and both its times lie within the calendar.  What else
is required of the members of its payload is a parameter. -/
def Genuine (s : KeyedSigner) (P : List (String × Document) → Prop) (token : String) (c : Claims) :
    Prop :=
  ∃ members, s.Carries token members s.issuer c ∧ P members ∧ c.subject ≠ "" ∧ 0 ≤ c.expiresAt ∧
    Timestamp.inCalendar c.issuedAt = true ∧ Timestamp.inCalendar c.expiresAt = true

section

variable {s : KeyedSigner} {now : Int} {token : String} {c : Claims}

/-- The claims of a signed payload are checked, whether it is an object or an array. -/
theorem parse_of_record {headerBytes payloadBytes : List UInt8} {header d : Document}
    {slots : Slots} {issuer : String}
    (htoken : token.toList =
      (Base64Url.encode headerBytes ++ '.' :: Base64Url.encode payloadBytes) ++ '.' ::
        signature s.key (Base64Url.encode headerBytes ++ '.' :: Base64Url.encode payloadBytes))
    (hheader : WrittenAs header headerBytes) (hnames : HeaderNames header "HS256")
    (hpayload : WrittenAs d payloadBytes) (hrecord : IsRecord payloadFields d slots)
    (hclaims : claimsOf slots = some (issuer, c)) :
    s.parse now token = s.checkClaims now issuer c (audienceOf d.tokens) := by
  have hsplit := split?_eq_some_iff.2 ⟨htoken, Base64Url.dot_not_mem_encode payloadBytes,
    Base64Url.dot_not_mem_encode _⟩
  have hreadHeader := readHeader_eq_ok_iff.2 ⟨headerBytes, header, rfl, hheader, hnames⟩
  have hreadPayload := (readPart_eq_ok_iff payloadFields_nodup).2
    ⟨payloadBytes, d, rfl, hpayload, hrecord, rfl⟩
  unfold parse
  rw [hsplit]
  simp only [hreadHeader, hreadPayload, hclaims, bind, Except.bind, ne_eq, not_true_eq_false,
    if_false]

/-- What a token carries is what is checked. -/
theorem parse_of_carries {members : List (String × Document)} {issuer : String}
    (h : s.Carries token members issuer c) : s.parse now token =
      s.checkClaims now issuer c (audienceOf (Document.ofMembers members).tokens) := by
  obtain ⟨headerBytes, payloadBytes, header, htoken, hheader, hnames, hmembers, htold⟩ := h
  obtain ⟨slots, hrecord, hclaims⟩ := claimsOf_iff.2 htold
  exact parse_of_record htoken hheader hnames hmembers hrecord hclaims

/-- Claims are parsed from a token that carries what passes the checks. -/
theorem carries_of_parse (h : s.parse now token = .ok c) :
    ∃ members issuer c', s.Carries token members issuer c' ∧
      s.checkClaims now issuer c' (audienceOf (Document.ofMembers members).tokens) = .ok c := by
  unfold parse at h
  split at h
  · next header payload sig hsplit =>
    obtain ⟨algorithm, hheader, hafter⟩ := of_bind_eq_ok h
    obtain ⟨halgorithm, hrest⟩ := of_ite_throw hafter
    obtain ⟨hsignature, hpart⟩ := of_ite_throw hrest
    obtain ⟨⟨slots, ts⟩, hpayload, hcheck⟩ := of_bind_eq_ok hpart
    rw [not_not.1 halgorithm] at hheader
    clear h hafter hrest hpart
    dsimp only at hcheck
    split at hcheck
    · next issuer c' hclaims =>
      obtain ⟨htoken, -, -⟩ := split?_eq_some_iff.1 hsplit
      rw [not_not.1 hsignature] at htoken
      obtain ⟨headerBytes, d, rfl, hwritten, hnames⟩ := readHeader_eq_ok_iff.1 hheader
      obtain ⟨payloadBytes, e, rfl, hd, hrecord, rfl⟩ :=
        (readPart_eq_ok_iff payloadFields_nodup).1 hpayload
      cases hrecord with
      -- an array is read as claims too, but no audience can be read from it
      | array h =>
          rw [audienceOf_array] at hcheck
          cases hcheck
      | @object members slots hlength hspelled hfull =>
          have htold := claimsOf_iff.1 ⟨slots, .object hlength hspelled hfull, hclaims⟩
          exact ⟨members, issuer, c',
            ⟨headerBytes, payloadBytes, d, htoken, hwritten, hnames, hd, htold⟩, hcheck⟩
    · cases hcheck
  · cases h

/-- What is not signed is invalid, whatever it says. -/
theorem parse_of_not_signed (h : ¬ s.Signed token) (now : Int) :
    ∃ reason, s.parse now token = .error (.invalid reason) := by
  unfold parse
  split
  · next header payload sig hsplit =>
    obtain ⟨htoken, -, -⟩ := split?_eq_some_iff.1 hsplit
    have hsignature : sig ≠ signature s.key (header ++ '.' :: payload) := by
      rintro rfl
      exact h ⟨header, payload, htoken⟩
    cases hheader : readHeader header with
    | error e =>
        obtain ⟨reason, rfl⟩ := readHeader_error hheader
        exact ⟨reason, rfl⟩
    | ok algorithm =>
        simp only [bind, Except.bind, if_pos hsignature]
        -- either the algorithm is refused already, or the signature is
        split
        · exact ⟨_, rfl⟩
        · exact ⟨_, rfl⟩
  · exact ⟨_, rfl⟩

/-- A genuine token that names nobody else is accepted until it expires. -/
theorem parse_of_genuine (h : s.Genuine Unaddressed token c) : s.parse now token =
    if c.expiresAt < now then .error .expired else .ok c := by
  obtain ⟨members, hcarries, hunaddressed, hsubject, hsign, hiat, hexp⟩ := h
  rw [parse_of_carries hcarries, (audienceOf_eq_unnamed_iff members).2 hunaddressed]
  by_cases htime : c.expiresAt < now
  · unfold checkClaims
    rw [if_neg nofun, if_neg (by omega), if_pos htime, if_pos htime]
    rfl
  · rw [if_neg htime]
    exact checkClaims_eq_ok_iff.2 ⟨rfl, rfl, hsign, by omega, rfl, hsubject, hiat, hexp⟩

/-- What is accepted is genuine, names nobody else and has not expired. -/
theorem genuine_of_parse (h : s.parse now token = .ok c) :
    s.Genuine Unaddressed token c ∧ now ≤ c.expiresAt := by
  obtain ⟨members, issuer, c', hcarries, hcheck⟩ := carries_of_parse h
  obtain ⟨rfl, haudience, hsign, htime, rfl, hsubject, hiat, hexp⟩ := checkClaims_eq_ok_iff.1 hcheck
  exact ⟨⟨members, hcarries, (audienceOf_eq_unnamed_iff members).1 haudience, hsubject, hsign, hiat,
    hexp⟩, htime⟩

end

/-! ## Tokens of written values -/

/-- The token of a header and a payload. -/
def tokenOf (s : KeyedSigner) (header payload : Value) : String :=
  let text := encodePart header.render ++ '.' :: encodePart payload.render
  String.ofList (text ++ '.' :: signature s.key text)

/-- The bytes of a written value are a JSON text of its document. -/
theorem writtenAs_render (v : Value) : WrittenAs v.document (Utf8.encode v.render) := by
  rw [WrittenAs, Utf8.glyphs_encode]
  exact tokensOf_render v

/-- What is read as a record is one. -/
theorem isRecord_of_read {fields : List Field} (hnodup : (fields.map Field.name).Nodup)
    {d : Document} {slots : Slots} (h : readRecord fields d.tokens = .ok (slots, [])) :
    IsRecord fields d slots := by
  obtain ⟨e, he, hrecord⟩ := (readRecord_eq_ok_iff hnodup).1 h
  rw [List.append_nil] at he
  rw [Document.tokens_inj he]
  exact hrecord

/-- The header that is written names the algorithm, and holds no key. -/
theorem headerNames_header : HeaderNames header.document "HS256" :=
  ⟨some (.text "JWT") :: some (.text "HS256") :: List.replicate 8 none,
    isRecord_of_read headerFields_nodup rfl, rfl, nofun⟩

/-- What a reader can tell of the members of a written object. -/
def documentsOf (members : List (String × Value)) : List (String × Document) :=
  members.map fun m => (m.1, m.2.document)

/-- The document of a written object is that of its members. -/
theorem document_object (members : List (String × Value)) :
    (Value.object members).document = .ofMembers (documentsOf members) :=
  Value.document_object members

/-- A token under the usual header carries what its payload says. -/
theorem carries_tokenOf {s : KeyedSigner} {members : List (String × Value)} {issuer : String}
    {c : Claims} (htold : Says (documentsOf members) issuer c) :
    s.Carries (s.tokenOf header (.object members)) (documentsOf members) issuer c :=
  ⟨Utf8.encode header.render, Utf8.encode (Value.object members).render, header.document,
    String.toList_ofList, writtenAs_render header, headerNames_header,
    document_object members ▸ writtenAs_render (.object members), htold⟩

/-- A signature is never empty. -/
theorem signature_ne_nil (key : List UInt8) (text : List Char) : signature key text ≠ [] := nofun

/-- A token without its signature is not signed. -/
theorem not_signed_of_stripped (s : KeyedSigner) (text : List Char) :
    ¬ s.Signed (String.ofList (text ++ ['.'])) := by
  rintro ⟨header, payload, htoken⟩
  have hsplit := splitLast_eq_some_iff.2 ⟨htoken, Base64Url.dot_not_mem_encode _⟩
  rw [String.toList_ofList, splitLast_eq_some_iff.2 ⟨rfl, List.not_mem_nil⟩] at hsplit
  exact signature_ne_nil _ _ (Prod.mk.inj (Option.some.inj hsplit)).2.symm

/-- **The tokens that are accepted** at a time are the genuine ones that name nobody else and have
not expired; a token that is not signed is invalid, whatever it says. -/
theorem parse_genuine (s : KeyedSigner) (now : Int) (token : String) :
    (∀ c, s.parse now token = .ok c ↔ s.Genuine Unaddressed token c ∧ now ≤ c.expiresAt) ∧
      (¬ s.Signed token → ∃ reason, s.parse now token = .error (.invalid reason)) := by
  refine ⟨fun c => ⟨genuine_of_parse, ?_⟩, fun h => parse_of_not_signed h now⟩
  rintro ⟨hgenuine, htime⟩
  rw [parse_of_genuine hgenuine, if_neg (by omega)]

/-- A payload for a minute that has no tag, and some members besides. -/
def minutePayload (more : List (String × Value)) : List (String × Value) :=
  [("iss", .text "gate"), ("sub", .text "ann"), ("role", .text "user"), ("type", .text "access"),
   ("iat", .integer 0), ("exp", .integer 60)] ++ more

/-- The claims of such a payload. -/
def minuteClaims : Claims := ⟨"ann", .user, "", .access, 0, 60⟩

/-- What an audience or a time is added to says the same claims. -/
theorem says_minutePayload {more : List (String × Value)}
    (hmore : ∀ m ∈ more, m.1 ∈ ["aud", "nbf"]) :
    Says (documentsOf (minutePayload more)) "gate" minuteClaims := by
  -- what is added stands under names that no claim is read from
  have hfilter : ∀ name ∉ ["aud", "nbf"],
      (documentsOf (minutePayload more)).filter (·.1 = name) =
        (documentsOf (minutePayload [])).filter (·.1 = name) := by
    intro name hname
    have hnone : (documentsOf more).filter (·.1 = name) = [] := by
      rw [List.filter_eq_nil_iff]
      intro m hm heq
      obtain ⟨m', hm', rfl⟩ := List.mem_map.1 hm
      exact hname (of_decide_eq_true heq ▸ hmore m' hm')
    rw [documentsOf, minutePayload, List.map_append, List.filter_append]
    exact (congrArg _ hnone).trans (List.append_nil _)
  have hspelled : ∀ {f : Field} {d : Document} {v : Datum}, f.name ∉ ["aud", "nbf"] →
      (documentsOf (minutePayload [])).filter (·.1 = f.name) = [(f.name, d)] → f.shape.Spells d v →
        f.SpelledBy (documentsOf (minutePayload more)) (some v) :=
    fun hname hd hspells => ⟨_, (hfilter _ hname).trans hd, hspells⟩
  exact ⟨hspelled (by decide) rfl (.text _), hspelled (by decide) rfl (.text _),
    hspelled (by decide) rfl (.name (by decide)), Or.inr ⟨hfilter "tag" (by decide), rfl⟩,
    hspelled (by decide) rfl (.name (by decide)),
    hspelled (by decide) rfl (.integer (by decide) (by decide)),
    hspelled (by decide) rfl (.integer (by decide) (by decide))⟩

/-- What is accepted is refused without its signature. -/
theorem parse_stripped :
    let s : KeyedSigner := ⟨[1], "gate", 60, 600⟩
    let payload := Value.object (minutePayload [("nbf", .integer 0)])
    let stripped := String.ofList
      (encodePart header.render ++ '.' :: encodePart payload.render ++ ['.'])
    s.parse 60 (s.tokenOf header payload) = .ok minuteClaims ∧ ¬ s.Signed stripped ∧
      ∃ reason, s.parse 60 stripped = .error (.invalid reason) := by
  intro s payload stripped
  have hcarries : s.Carries (s.tokenOf header payload) _ "gate" minuteClaims :=
    carries_tokenOf (says_minutePayload (by decide))
  have hgenuine : s.Genuine Unaddressed (s.tokenOf header payload) minuteClaims :=
    ⟨_, hcarries, (audienceOf_eq_unnamed_iff _).1 rfl, by decide, by decide, by decide, by decide⟩
  have hunsigned : ¬ s.Signed stripped := not_signed_of_stripped s _
  exact ⟨((parse_genuine s 60 _).1 minuteClaims).2 ⟨hgenuine, by decide⟩, hunsigned,
    (parse_genuine s 60 stripped).2 hunsigned⟩

/-- Whether no member of a payload is an audience that is a text or a list of texts. -/
def NoAudience (members : List (String × Document)) : Prop :=
  ∀ d, ("aud", d) ∈ members → (∀ s, d ≠ .text (.sound s)) ∧ ∀ ss, d ≠ .texts ss

/-- A payload has an audience only if one was added. -/
theorem noAudience_minutePayload {more : List (String × Value)}
    (h : NoAudience (documentsOf more)) : NoAudience (documentsOf (minutePayload more)) := by
  have hbase : "aud" ∉ (documentsOf (minutePayload [])).map (·.1) := by decide
  intro d hd
  rw [documentsOf, minutePayload, List.map_append, List.mem_append] at hd
  exact h d (hd.resolve_left fun hmem => hbase (List.mem_map_of_mem hmem))

/-- A payload whose audience cannot be read is refused all the same. -/
theorem parse_of_unreadable (s : KeyedSigner) (hissuer : s.issuer = "gate")
    {more : List (String × Value)} (hmore : ∀ m ∈ more, m.1 ∈ ["aud", "nbf"])
    (hnone : NoAudience (documentsOf more))
    (hunreadable :
      audienceOf (Document.ofMembers (documentsOf (minutePayload more))).tokens = .unreadable)
    (now : Int) :
    s.Genuine NoAudience (s.tokenOf header (.object (minutePayload more))) minuteClaims ∧
      s.parse now (s.tokenOf header (.object (minutePayload more))) = .error (.invalid .json) := by
  have hcarries : s.Carries (s.tokenOf header (.object (minutePayload more))) _ s.issuer
      minuteClaims := carries_tokenOf (hissuer ▸ says_minutePayload hmore)
  refine ⟨⟨_, hcarries, noAudience_minutePayload hnone, by decide, by decide, by decide, by decide⟩,
    ?_⟩
  rw [parse_of_carries hcarries, hunreadable]
  rfl

/-- Without an audience a genuine token is refused all the same if its payload has `aud` or `nbf`
twice, an audience of too many brackets, or a list of times for `nbf`; and so is one whose payload
is an array of the claims. -/
theorem parse_unaudienced :
    let s : KeyedSigner := ⟨[1], "gate", 60, 600⟩
    let token (more : List (String × Value)) := s.tokenOf header (.object (minutePayload more))
    let brackets := (List.replicate 127 ()).foldr (fun _ v => Value.array [v]) .null
    let refused (more : List (String × Value)) :=
      (s.Genuine NoAudience (token more) minuteClaims ∧ 0 ≤ minuteClaims.expiresAt) ∧
        s.parse 0 (token more) = .error (.invalid .json)
    let row : Value := .array [.text "gate", .text "ann", .text "user", .text "", .text "access",
      .integer 0, .integer 60]
    (refused [("aud", .null), ("aud", .null)] ∧ refused [("aud", brackets)] ∧
      refused [("nbf", .null), ("nbf", .null)] ∧ refused [("nbf", .array [.integer 0])]) ∧
    (∃ slots, IsRecord payloadFields row.document slots ∧
      claimsOf slots = some ("gate", minuteClaims)) ∧
    s.parse 0 (s.tokenOf header row) = .error (.invalid .json) := by
  intro s token brackets refused row
  have hrefused : ∀ {more : List (String × Value)}, (∀ m ∈ more, m.1 ∈ ["aud", "nbf"]) →
      NoAudience (documentsOf more) →
      audienceOf (Document.ofMembers (documentsOf (minutePayload more))).tokens = .unreadable →
        refused more := by
    intro more hmore hnone hunreadable
    obtain ⟨hgenuine, hparse⟩ := parse_of_unreadable s rfl hmore hnone hunreadable 0
    exact ⟨⟨hgenuine, by decide⟩, hparse⟩
  have hnull : NoAudience (documentsOf [("aud", .null), ("aud", .null)]) := by
    intro d hd
    obtain rfl : d = .null := by simpa [documentsOf, Value.document] using hd
    exact ⟨nofun, nofun⟩
  have hbrackets : NoAudience (documentsOf [("aud", brackets)]) := by
    intro d hd
    obtain rfl : d = brackets.document := by simpa [documentsOf] using hd
    refine ⟨nofun, fun ss hss => ?_⟩
    have hitems := Document.array.inj hss
    cases ss with
    | nil => cases hitems
    | cons s ss => cases (List.cons.inj hitems).1
  have hrow : IsRecord payloadFields row.document (slotsOf "gate" (some "") minuteClaims) :=
    isRecord_of_read payloadFields_nodup rfl
  have hclaims : claimsOf (slotsOf "gate" (some "") minuteClaims) = some ("gate", minuteClaims) :=
    claimsOf_slotsOf "gate" rfl
  refine ⟨⟨hrefused (by decide) hnull rfl, hrefused (by decide) hbrackets (by decide +kernel),
    hrefused (by decide) (by simp [NoAudience, documentsOf]) rfl,
    hrefused (by decide) (by simp [NoAudience, documentsOf]) rfl⟩, ⟨_, hrow, hclaims⟩, ?_⟩
  exact (parse_of_record String.toList_ofList (writtenAs_render header) headerNames_header
    (writtenAs_render row) hrow hclaims).trans rfl

end KeyedSigner

end Gatehouse
