import Gatehouse.Proofs.Token.Genuine

/-!
# Gatehouse.Proofs.Token.RoundTrip — what is issued is accepted

A pair is issued for a subject with a role and a tag.  Each of its tokens has a life time of its own
kind, and it can be issued if the instant at which that ends can be written (`Fits`): the seconds
have to fit into a signed 64-bit integer and to lie within the calendar, which are the two places at
which the computation of the end can fail.

A token that is issued carries the claims that it is issued for (`KeyedSigner.claimsFor`), which
makes it genuine (`genuine_write`), and what is genuine and names nobody else is parsed.  So nothing
is said here about signatures, encodings or JSON: all of it is `Proofs.Token.Genuine`.

`issue_round_trip` puts the two together.  It says when a pair is issued, which of the two errors is
returned otherwise, and what each token of a pair is parsed as at every time, by anybody who has the
same secret and the same issuer.  The life times of who parses do not matter, since a token says
itself when it expires.
-/

namespace Gatehouse

open Gatehouse.Text Gatehouse.Json Gatehouse.Time

/-- The token of a kind in a pair. -/
def TokenPair.ofKind (p : TokenPair) : TokenKind → String
  | .access => p.access
  | .refresh => p.refresh

namespace KeyedSigner

/-! ## What a written token carries -/

/-- The calendar is what lies between its first second and its last. -/
theorem inCalendar_iff {n : Int} : Timestamp.inCalendar n = true ↔
    Timestamp.firstSecond ≤ n ∧ n ≤ Timestamp.lastSecond := by
  rw [Timestamp.inCalendar, Bool.and_eq_true, decide_eq_true_iff, decide_eq_true_iff]

/-- A 64-bit integer holds every second of the calendar. -/
theorem bounds_of_inCalendar {n : Int} (h : Timestamp.inCalendar n = true) :
    -(Word.bound 63 : Int) ≤ n ∧ n < Word.bound 63 := by
  obtain ⟨hlow, hhigh⟩ := inCalendar_iff.1 h
  exact ⟨Int.le_trans (by decide) hlow, Int.lt_of_le_of_lt hhigh (by decide)⟩

/-- The integers of a token are written in full. -/
theorem spells_integer {n : Int} (h : Timestamp.inCalendar n = true) :
    Shape.Spells .integer64 (Value.integer n).document (.integer n) := by
  obtain ⟨hlow, hhigh⟩ := bounds_of_inCalendar h
  have hwhole : Numeral.ofInteger n = .whole n :=
    Numeral.ofInteger_eq_whole hlow (Int.lt_trans hhigh (by decide))
  rw [Value.document, hwhole]
  exact .integer hlow hhigh

/-- **A written token is genuine** and names nobody else, if its claims can be accepted. -/
theorem genuine_write (s : KeyedSigner) {c : Claims} (hsubject : c.subject ≠ "")
    (hsign : 0 ≤ c.expiresAt) (hiat : Timestamp.inCalendar c.issuedAt = true)
    (hexp : Timestamp.inCalendar c.expiresAt = true) : s.Genuine Unaddressed (s.write c) c := by
  have hrole : c.role.name ∈ Role.names := by
    cases c.role with | user | admin => decide
  have hkind : c.kind.name ∈ TokenKind.names := by
    cases c.kind with | access | refresh => decide
  refine ⟨_, carries_tokenOf ⟨⟨_, rfl, .text _⟩, ⟨_, rfl, .text _⟩, ⟨_, rfl, .name hrole⟩,
    Or.inl ⟨_, rfl, .text _⟩, ⟨_, rfl, .name hkind⟩, ⟨_, rfl, spells_integer hiat⟩,
    ⟨_, rfl, spells_integer hexp⟩⟩, ?_, hsubject, hsign, hiat, hexp⟩
  exact ⟨Nat.zero_le _, Nat.zero_le _, by simp [documentsOf], by simp [documentsOf]⟩

/-! ## Issuing -/

/-- Whether a life time that begins now ends at an instant that can be written: the seconds fit into
a signed 64-bit integer and lie within the calendar. -/
def Fits (now : Int) (ttl : Nat) : Prop :=
  now + ttl < Word.bound 63 ∧ Timestamp.inCalendar (now + ttl) = true

/-- The claims of a token of a kind for a request. -/
def claimsFor (s : KeyedSigner) (now : Int) (r : IssueRequest) (kind : TokenKind) : Claims :=
  ⟨r.subject, r.role, r.tag, kind, now, now + s.ttl kind⟩

/-- A token whose life time fits is written with the claims that it is asked for. -/
theorem sign_of_fits (s : KeyedSigner) {now : Int} (hnow : 0 ≤ now) (r : IssueRequest)
    {kind : TokenKind} (h : Fits now (s.ttl kind)) :
    s.sign now r kind = .ok (s.write (s.claimsFor now r kind)) := by
  obtain ⟨hbound, hcalendar⟩ := h
  have hexpiry : expiry? now (s.ttl kind) = some (now + s.ttl kind) :=
    if_pos ⟨by omega, hbound, hcalendar⟩
  unfold sign
  rw [hexpiry]
  rfl

/-- A token whose life time does not fit is not signed, and the error names its kind. -/
theorem sign_of_not_fits (s : KeyedSigner) {now : Int} (r : IssueRequest) {kind : TokenKind}
    (h : ¬ Fits now (s.ttl kind)) :
    s.sign now r kind = .error (.signing (kind.title ++ " ttl out of range")) := by
  have hexpiry : expiry? now (s.ttl kind) = none := if_neg fun hfits => h hfits.2
  unfold sign
  rw [hexpiry]

/-- A pair is issued if there is a subject and both life times fit. -/
theorem issue_of_fits (s : KeyedSigner) {now : Int} (hnow : 0 ≤ now) {r : IssueRequest}
    (hsubject : r.subject ≠ "") (h : ∀ kind, Fits now (s.ttl kind)) : s.issue now r =
      .ok ⟨s.write (s.claimsFor now r .access), s.write (s.claimsFor now r .refresh)⟩ := by
  unfold issue
  rw [if_neg hsubject, sign_of_fits s hnow r (h .access), sign_of_fits s hnow r (h .refresh)]
  rfl

/-- No pair is signed if a life time does not fit. -/
theorem issue_of_not_fits (s : KeyedSigner) {now : Int} (hnow : 0 ≤ now) {r : IssueRequest}
    (hsubject : r.subject ≠ "") (h : ¬ ∀ kind, Fits now (s.ttl kind)) :
    ∃ reason, s.issue now r = .error (.signing reason) := by
  unfold issue
  rw [if_neg hsubject]
  by_cases haccess : Fits now (s.ttl .access)
  · have hrefresh : ¬ Fits now (s.ttl .refresh) := by
      intro hrefresh
      refine h fun kind => ?_
      cases kind with
      | access => exact haccess
      | refresh => exact hrefresh
    rw [sign_of_fits s hnow r haccess, sign_of_not_fits s r hrefresh]
    exact ⟨_, rfl⟩
  · rw [sign_of_not_fits s r haccess]
    exact ⟨_, rfl⟩

/-- Nothing is issued without a subject, whatever the life times are. -/
theorem issue_of_empty (s : KeyedSigner) (now : Int) {r : IssueRequest} (h : r.subject = "") :
    s.issue now r = .error .emptySubject := by
  unfold issue
  rw [if_pos h]
  rfl

/-- When a pair is issued, and what it is. -/
theorem issue_eq_ok_iff (s : KeyedSigner) {now : Int} (hnow : 0 ≤ now) {r : IssueRequest}
    {p : TokenPair} : s.issue now r = .ok p ↔
      (r.subject ≠ "" ∧ ∀ kind, Fits now (s.ttl kind)) ∧
        p = ⟨s.write (s.claimsFor now r .access), s.write (s.claimsFor now r .refresh)⟩ := by
  by_cases hsubject : r.subject = ""
  · rw [issue_of_empty s now hsubject]
    exact iff_of_false nofun fun h => h.1.1 hsubject
  by_cases hfits : ∀ kind, Fits now (s.ttl kind)
  · rw [issue_of_fits s hnow hsubject hfits, Except.ok.injEq]
    exact ⟨fun h => ⟨⟨hsubject, hfits⟩, h.symm⟩, fun h => h.2.symm⟩
  · obtain ⟨reason, hissue⟩ := issue_of_not_fits s hnow hsubject hfits
    rw [hissue]
    exact iff_of_false nofun fun h => hfits h.1.2

/-! ## Round trip -/

/-- A token that is issued is parsed under the same secret and issuer as what it is issued for. -/
theorem parse_write (s s' : KeyedSigner) (hkey : s'.key = s.key) (hissuer : s'.issuer = s.issuer)
    {now : Int} (hnow : 0 ≤ now) {r : IssueRequest} (hsubject : r.subject ≠ "") {kind : TokenKind}
    (hfits : Fits now (s.ttl kind)) (t : Int) :
    s'.parse t (s.write (s.claimsFor now r kind)) =
      if now + s.ttl kind < t then .error .expired else .ok (s.claimsFor now r kind) := by
  obtain ⟨hbound, hcalendar⟩ := hfits
  have hwrite : s.write (s.claimsFor now r kind) = s'.write (s.claimsFor now r kind) := by
    unfold write
    rw [hkey, hissuer]
  have hexpiry : (0 : Int) ≤ now + s.ttl kind := by omega
  -- the end lies within the calendar, so the beginning does, which is not negative
  have hiat : Timestamp.inCalendar now = true := by
    obtain ⟨-, hhigh⟩ := inCalendar_iff.1 hcalendar
    exact inCalendar_iff.2 ⟨Int.le_trans (by decide) hnow, by omega⟩
  rw [hwrite, parse_of_genuine (genuine_write s' hsubject hexpiry hiat hcalendar)]
  rfl

/-- **Round trip.**  A pair is issued if there is a subject and both life times fit, and is refused
for the lack of either otherwise; at every time each token of the pair is parsed under the same
secret and issuer as what it was issued for, or is expired. -/
theorem issue_round_trip (s : KeyedSigner) {now : Int} (hnow : 0 ≤ now) (r : IssueRequest) :
    ((∃ p, s.issue now r = .ok p) ↔ r.subject ≠ "" ∧ ∀ kind, Fits now (s.ttl kind)) ∧
    (r.subject = "" → s.issue now r = .error .emptySubject) ∧
    (r.subject ≠ "" → (¬ ∀ kind, Fits now (s.ttl kind)) →
      ∃ reason, s.issue now r = .error (.signing reason)) ∧
    ∀ p, s.issue now r = .ok p → ∀ s' : KeyedSigner, s'.key = s.key → s'.issuer = s.issuer →
      ∀ t kind, s'.parse t (p.ofKind kind) =
        if now + s.ttl kind < t then .error .expired
        else .ok ⟨r.subject, r.role, r.tag, kind, now, now + s.ttl kind⟩ := by
  refine ⟨?_, issue_of_empty s now, issue_of_not_fits s hnow, ?_⟩
  · constructor
    · rintro ⟨p, hp⟩
      exact ((issue_eq_ok_iff s hnow).1 hp).1
    · intro h
      exact ⟨_, (issue_eq_ok_iff s hnow).2 ⟨h, rfl⟩⟩
  · intro p hp s' hkey hissuer t kind
    obtain ⟨⟨hsubject, hfits⟩, rfl⟩ := (issue_eq_ok_iff s hnow).1 hp
    have hparse := parse_write s s' hkey hissuer hnow hsubject (hfits kind) t
    cases kind with
    | access => exact hparse
    | refresh => exact hparse

/-- A pair of a minute and of ten, and two pairs that are not issued. -/
theorem issue_minute :
    let s : KeyedSigner := ⟨[1], "gate", 60, 600⟩
    let s' : KeyedSigner := ⟨[1], "gate", 60, 9223372036854775807⟩
    let r : IssueRequest := ⟨"ann", .admin, "\"\n\\é"⟩
    (∃ p, s.issue 1 r = .ok p ∧
      s.parse 61 p.access = .ok ⟨"ann", .admin, "\"\n\\é", .access, 1, 61⟩ ∧
      s.parse 62 p.access = .error .expired ∧
      s.parse 62 p.refresh = .ok ⟨"ann", .admin, "\"\n\\é", .refresh, 1, 601⟩) ∧
    s.issue 1 ⟨"", .user, ""⟩ = .error .emptySubject ∧
    ∃ reason, s'.issue 1 r = .error (.signing reason) := by
  intro s s' r
  have hfits : ∀ kind, Fits 1 (s.ttl kind) := by
    intro kind
    cases kind with
    | access => exact ⟨by decide, by decide⟩
    | refresh => exact ⟨by decide, by decide⟩
  obtain ⟨hissue, -, -, hparse⟩ := issue_round_trip s (by decide : (0 : Int) ≤ 1) r
  obtain ⟨p, hp⟩ := hissue.2 ⟨by decide, hfits⟩
  refine ⟨⟨p, hp, ?_, ?_, ?_⟩, ?_, ?_⟩
  · exact (hparse p hp s rfl rfl 61 .access).trans (if_neg (by decide))
  · exact (hparse p hp s rfl rfl 62 .access).trans (if_pos (by decide))
  · exact (hparse p hp s rfl rfl 62 .refresh).trans (if_neg (by decide))
  · exact (issue_round_trip s (by decide) ⟨"", .user, ""⟩).2.1 rfl
  · refine (issue_round_trip s' (by decide) r).2.2.1 (by decide) fun h => ?_
    exact absurd (h .refresh).1 (by decide)

end KeyedSigner

end Gatehouse
