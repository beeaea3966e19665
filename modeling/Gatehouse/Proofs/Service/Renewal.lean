import Gatehouse.Proofs.Service.History
import Gatehouse.Proofs.Token.RoundTrip

/-!
# Gatehouse.Proofs.Service.Renewal — tokens are renewed for whom they were issued

A pair of tokens is issued once and then renewed any number of times, each time by the refresh token
of the pair before.  A renewal knows of the first request only what it reads in that token, and asks
for a new pair in these words.  So every pair of such a chain is the one that the first request
would have been answered with at that time (`Chain.issued_again`), and all else follows from what is
known of a single pair.

The calls of a chain may come at any times and in any worlds, with any other operations between
them: nothing of a world but its clock is looked at.  The times need not even go up.  A token is
accepted until it expires and not only from when it was issued, so a chain whose next call comes
earlier is a chain as well.

What can end a chain is said exactly.  The refresh token expires after its life time, and then the
chain is over for good; or the end of a new life time would lie beyond what can be written in a
token, and then the renewal fails and can be tried again only at an earlier time.
-/

namespace Gatehouse

open Gatehouse.Time

/-- A signer with a secret of any bytes, as an issuer of tokens. -/
def KeyedSigner.toIssuer (s : KeyedSigner) : TokenIssuer := ⟨s.issue, s.parse⟩

namespace World

variable {w : World} {tokens : TokenIssuer} {token : String}

/-- The time of a world in seconds since 1970. -/
def second (w : World) : Int := (Timestamp.ofNanos w.clock).seconds

/-- No world is older than 1970. -/
theorem second_nonneg (w : World) : 0 ≤ w.second := Int.natCast_nonneg _

/-! ## Operations on tokens -/

/-- A pair is asked of the issuer, and its error is told. -/
theorem run_issue_fst (r : IssueRequest) (refreshed : Bool) :
    (w.run (Engine.issue tokens r refreshed)).1 =
      (tokens.issue w.second r).mapError ApiError.ofToken := by
  refine (congrArg Prod.fst (run_bind_of_ok run_now)).trans ?_
  unfold second
  cases tokens.issue (Timestamp.ofNanos w.clock).seconds r with
  | error e => rfl
  | ok pair => rfl

/-- Who presents a token that is not accepted is told why. -/
theorem run_claims_bind_of_error {α : Type} {kind : TokenKind} {e : TokenError}
    {f : Claims → Procedure α} (hparse : tokens.parse w.second token = .error e) :
    (w.run (Engine.claims tokens token kind >>= f)).1 = .error (.ofToken e) := by
  have hclaims : (w.run (Engine.claims tokens token kind)).1 = .error (.ofToken e) := by
    refine (congrArg Prod.fst (run_bind_of_ok run_now)).trans ?_
    unfold second at hparse
    rw [hparse]
    rfl
  rw [run_bind_eq, hclaims]

/-- Who presents a refresh token gets a new pair for whom it names. -/
theorem run_refresh_of_ok {c : Claims} (hparse : tokens.parse w.second token = .ok c)
    (hkind : c.kind = .refresh) : (w.run (Engine.serve tokens (.refresh token))).1 =
      (tokens.issue w.second ⟨c.subject, c.role, c.tag⟩).mapError ApiError.ofToken := by
  refine (congrArg Prod.fst (run_bind_of_ok (run_claims_of_ok hparse hkind))).trans ?_
  exact run_issue_fst _ true

/-- Who presents an access token is whom it names. -/
theorem run_identify_of_ok {c : Claims} (hparse : tokens.parse w.second token = .ok c)
    (hkind : c.kind = .access) :
    (w.run (Engine.serve tokens (.identify token))).1 = .ok c.subject :=
  congrArg Prod.fst (run_bind_of_ok (run_claims_of_ok hparse hkind))

end World

/-! ## Chains -/

/-- A pair at the end of a chain: one is issued for a request, and then, some times over, the
refresh token of the last pair is presented for a new one.  The time is that of the last call. -/
inductive Chain (tokens : TokenIssuer) (r : IssueRequest) : Nat → Int → TokenPair → Prop where
  | issued {w : World} {pair : TokenPair}
    (answered : (w.run (Engine.serve tokens (.issue r))).1 = .ok pair) :
    Chain tokens r 0 w.second pair
  | refreshed {n : Nat} {time : Int} {last pair : TokenPair} {w : World}
    (before : Chain tokens r n time last)
    (answered : (w.run (Engine.serve tokens (.refresh last.refresh))).1 = .ok pair) :
    Chain tokens r (n + 1) w.second pair

namespace Chain

open KeyedSigner

variable {s : KeyedSigner} {r : IssueRequest} {n : Nat} {time : Int} {pair : TokenPair}

/-- What a pair that was issued is parsed as. -/
theorem parse_of_issue (hnow : 0 ≤ time) (hissue : s.issue time r = .ok pair) (t : Int)
    (kind : TokenKind) : s.parse t (pair.ofKind kind) =
      if time + s.ttl kind < t then .error .expired
      else .ok ⟨r.subject, r.role, r.tag, kind, time, time + s.ttl kind⟩ := by
  obtain ⟨⟨hsubject, hfits⟩, rfl⟩ := (issue_eq_ok_iff s hnow).1 hissue
  have hparse := parse_write s s rfl rfl hnow hsubject (hfits kind) t
  cases kind with
  | access => exact hparse
  | refresh => exact hparse

/-- What comes of the refresh token of a pair that was issued. -/
theorem run_refresh_of_issue (hnow : 0 ≤ time) (hissue : s.issue time r = .ok pair) (w : World) :
    (w.run (Engine.serve s.toIssuer (.refresh pair.refresh))).1 =
      if time + s.refreshTtl < w.second then .error (.ofToken .expired)
      else (s.issue w.second r).mapError ApiError.ofToken := by
  have hparse : s.toIssuer.parse w.second pair.refresh =
      if time + s.refreshTtl < w.second then .error .expired
      else .ok ⟨r.subject, r.role, r.tag, .refresh, time, time + s.refreshTtl⟩ :=
    parse_of_issue hnow hissue w.second .refresh
  split
  · next hexpired =>
    rw [if_pos hexpired] at hparse
    exact World.run_claims_bind_of_error hparse
  · next hvalid =>
    rw [if_neg hvalid] at hparse
    exact World.run_refresh_of_ok hparse rfl

/-- An answer that is told is the answer that was given. -/
theorem eq_ok_of_mapError {answer : Except TokenError TokenPair}
    (h : answer.mapError ApiError.ofToken = .ok pair) : answer = .ok pair := by
  cases answer with
  | error e => cases h
  | ok pair' =>
      cases h
      rfl

/-- **Every pair of a chain is one for the first request**, as it would be answered at that time. -/
theorem issued_again (h : Chain s.toIssuer r n time pair) :
    0 ≤ time ∧ s.issue time r = .ok pair := by
  induction h with
  | @issued w pair answered =>
      refine ⟨w.second_nonneg, eq_ok_of_mapError ?_⟩
      exact (World.run_issue_fst r false).symm.trans answered
  | @refreshed n time last pair w before answered ih =>
      refine ⟨w.second_nonneg, eq_ok_of_mapError ?_⟩
      rw [run_refresh_of_issue ih.1 ih.2] at answered
      split at answered
      · cases answered
      · exact answered

/-- **Renewal preserves identity.**  Take any signer, any request and the pair at the end of any
chain that begins with this request.  At every time each token of the pair is parsed as what the
request asked for, with its own kind, or is expired.  Whoever presents the access token before it
expires is identified as the first subject.  Whoever presents the refresh token gets a pair with
which the chain goes on, unless the token has expired or the end of a new life time cannot be
written; the errors say which. -/
theorem renewal_preserves_identity (s : KeyedSigner) (r : IssueRequest) {n : Nat} {time : Int}
    {pair : TokenPair} (h : Chain s.toIssuer r n time pair) :
    (∀ t kind, s.parse t (pair.ofKind kind) =
      if time + s.ttl kind < t then .error .expired
      else .ok ⟨r.subject, r.role, r.tag, kind, time, time + s.ttl kind⟩) ∧
    ∀ w : World,
      (w.second ≤ time + s.accessTtl →
        (w.run (Engine.serve s.toIssuer (.identify pair.access))).1 = .ok r.subject) ∧
      let answer := (w.run (Engine.serve s.toIssuer (.refresh pair.refresh))).1
      (time + s.refreshTtl < w.second → answer = .error (.ofToken .expired)) ∧
      (w.second ≤ time + s.refreshTtl →
        ((∀ kind, Fits w.second (s.ttl kind)) →
          ∃ next, answer = .ok next ∧ Chain s.toIssuer r (n + 1) w.second next) ∧
        ((¬∀ kind, Fits w.second (s.ttl kind)) →
          ∃ reason, answer = .error (.ofToken (.signing reason)))) := by
  obtain ⟨hnow, hissue⟩ := h.issued_again
  have hparse := parse_of_issue hnow hissue
  have hsubject : r.subject ≠ "" := ((issue_eq_ok_iff s hnow).1 hissue).1.1
  refine ⟨hparse, fun w => ⟨?_, ?_⟩⟩
  · intro hvalid
    have haccess : s.toIssuer.parse w.second pair.access = .ok _ :=
      (hparse w.second .access).trans (if_neg (Int.not_lt.2 hvalid))
    exact World.run_identify_of_ok haccess rfl
  · intro answer
    -- a refresh issues for what the refresh token says, which is what the pair was issued for
    have hanswer : answer = if time + s.refreshTtl < w.second then .error (.ofToken .expired)
        else (s.issue w.second r).mapError ApiError.ofToken := run_refresh_of_issue hnow hissue w
    refine ⟨fun hexpired => hanswer.trans (if_pos hexpired), fun hvalid => ⟨?_, ?_⟩⟩
    · intro hfits
      obtain ⟨next, hnext⟩ : ∃ next, s.issue w.second r = .ok next :=
        ⟨_, (issue_eq_ok_iff s w.second_nonneg).2 ⟨⟨hsubject, hfits⟩, rfl⟩⟩
      rw [if_neg (Int.not_lt.2 hvalid), hnext] at hanswer
      exact ⟨next, hanswer, h.refreshed hanswer⟩
    · intro hfits
      obtain ⟨reason, hrefused⟩ := issue_of_not_fits s w.second_nonneg hsubject hfits
      rw [if_neg (Int.not_lt.2 hvalid), hrefused] at hanswer
      exact ⟨reason, hanswer⟩

/-- An admin's tokens, renewed twice: ten minutes after they were issued, when the refresh token is
in its last second, and ten minutes after that. -/
theorem renewal_of_admin :
    let s : KeyedSigner := ⟨[1], "gate", 60, 600⟩
    let r : IssueRequest := ⟨"ann", .admin, "night"⟩
    let world (second : Nat) : World := .empty 0 (second * 1000000000)
    ∃ pair, Chain s.toIssuer r 2 1200 pair ∧
      s.parse 1260 pair.access = .ok ⟨"ann", .admin, "night", .access, 1200, 1260⟩ ∧
      ((world 1260).run (Engine.serve s.toIssuer (.identify pair.access))).1 = .ok "ann" ∧
      ((world 1801).run (Engine.serve s.toIssuer (.refresh pair.refresh))).1 =
        .error (.ofToken .expired) := by
  intro s r world
  have hclock : ∀ second : Nat, (world second).second = second := by
    intro second
    simp [world, World.second, World.empty, Timestamp.ofNanos]
  -- all life times end long before the last second that can be written
  have hfits : ∀ second ∈ [(0 : Int), 600, 1200], ∀ kind, Fits second (s.ttl kind) := by
    intro second hsecond kind
    simp only [List.mem_cons, List.not_mem_nil, or_false] at hsecond
    rcases hsecond with rfl | rfl | rfl <;> cases kind <;> exact ⟨by decide, by decide⟩
  obtain ⟨first, hissue⟩ : ∃ first, s.issue 0 r = .ok first :=
    ⟨_, (issue_eq_ok_iff s (Int.le_refl 0)).2 ⟨⟨by decide, hfits 0 (by decide)⟩, rfl⟩⟩
  have hfirst : Chain s.toIssuer r 0 0 first := by
    have hissued : ((world 0).run (Engine.serve s.toIssuer (.issue r))).1 = .ok first := by
      refine (World.run_issue_fst r false).trans ?_
      rw [hclock]
      exact congrArg (Except.mapError ApiError.ofToken) hissue
    have hchain := Chain.issued hissued
    rwa [hclock] at hchain
  have hnext := ((renewal_preserves_identity s r hfirst).2 (world 600)).2.2
  rw [hclock] at hnext
  obtain ⟨second, -, hsecond⟩ := (hnext (by decide)).1 (hfits 600 (by decide))
  have hnext := ((renewal_preserves_identity s r hsecond).2 (world 1200)).2.2
  rw [hclock] at hnext
  obtain ⟨third, -, hthird⟩ := (hnext (by decide)).1 (hfits 1200 (by decide))
  obtain ⟨hparse, hserve⟩ := renewal_preserves_identity s r hthird
  refine ⟨third, hthird, (hparse 1260 .access).trans (if_neg (by decide)), ?_, ?_⟩
  · refine (hserve (world 1260)).1 ?_
    rw [hclock]
    decide
  · refine (hserve (world 1801)).2.1 ?_
    rw [hclock]
    decide

end Chain

end Gatehouse
