import Gatehouse.Proofs.Service.Compose
import Gatehouse.Proofs.Service.Prompt

/-!
# Gatehouse.Proofs.Service.Gate — what an operation is refused for before it looks

Over any backing and before any event log, the token of an operation decides alone whether it is
refused because of its token, and a request that is refused as unfit has touched nothing.

* `run_guarded`, `run_refresh` : the first of these, for the two kinds of tokens.
* `gate` : the main result, for every operation, of the engine and within the layers.

An operation reads the claims of its token first, so a token that is not accepted ends it before the
store or a cache has been asked.  The other half is that nothing later in an operation says that a
token is not accepted: a caller who may not do something is refused with another error, and so is
one whose object does not exist.  This is what `Prompt` says of procedures, and it was proved of
every operation behind its token.

`refresh` is different in one respect.  It asks the issuer for a pair, which may refuse it, and what
an issuer refuses is reported like a token that is not accepted.  So the theorem names this as a
second way, for `refresh` alone.

A backing is any state, so that it is untouched is said of the whole of it: counts of reads, caches
and whatever else it may keep.
-/

namespace Gatehouse

open Gatehouse.Time

/-! ## Two kinds of tokens -/

/-- An issuer whose access tokens are the names of users, and whose refresh tokens are such names
behind a mark. -/
def TokenIssuer.marked : TokenIssuer where
  issue _ request :=
    if request.subject = "" then .error .emptySubject
    else .ok ⟨request.subject, "!" ++ request.subject⟩
  parse _ token :=
    match token.toList with
    | [] => .error (.invalid .notThreeParts)
    | '!' :: name => .ok ⟨.ofList name, .user, "", .refresh, 0, 0⟩
    | name => .ok ⟨.ofList name, .user, "", .access, 0, 0⟩

namespace Site

open Engine

variable {κ ℓ : Type} {B : Backing κ} {L : EventLog ℓ} {s t : Site κ ℓ} {op : Operation}
  {tokens : TokenIssuer}

/-! ## Runs -/

/-- Whether nothing that the service works on has changed: neither what is behind it, where every
call may leave a trace, nor the event log and the queue before it. -/
def Untouched (s t : Site κ ℓ) : Prop := t.backing = s.backing ∧ t.outbox = s.outbox

/-- A run that touches nothing leaves everything untouched. -/
theorem run_untouched {α : Type} {x : Procedure α}
    {Q : List ServiceCall → Except ApiError α → Prop}
    (hx : x.run.Tells (fun _ => True) ServiceCall.touched Q) (s : Site κ ℓ) :
    ∃ es, Q es (s.run B L x).1 ∧ (es = [] → s.Untouched (s.run B L x).2) := by
  refine Program.run_tells (R := fun s es t => es = [] → s.Untouched t) (fun s _ => ⟨rfl, rfl⟩) ?_
    hx s
  intro c s es t _ hrest hes
  obtain ⟨htouched, rfl⟩ := List.append_eq_nil_iff.1 hes
  obtain ⟨hback, houtbox⟩ := hrest rfl
  cases c with
  | clock | note => exact ⟨hback, houtbox⟩
  | _ => cases htouched

/-- A token that is not accepted ends an operation before anything is touched. -/
theorem run_claims_refused_bind {α : Type} {token : String} {kind : TokenKind}
    {f : Claims → Procedure α}
    (h : ¬∃ c, tokens.parse (Timestamp.ofNanos (B.clock s.backing)).seconds token = .ok c ∧
      c.kind = kind) :
    (∃ reason, (s.run B L (claims tokens token kind >>= f)).1 = .error (.authentication reason)) ∧
      s.Untouched (s.run B L (claims tokens token kind >>= f)).2 := by
  have hrun := run_claims (B := B) (L := L) tokens token kind s
  cases hparse : tokens.parse (Timestamp.ofNanos (B.clock s.backing)).seconds token with
  | error e =>
      rw [hparse] at hrun
      rw [run_bind_of_error hrun]
      exact ⟨⟨_, rfl⟩, rfl, rfl⟩
  | ok c =>
      rw [hparse] at hrun
      dsimp only at hrun
      rw [if_neg fun hkind => h ⟨c, hparse, hkind⟩] at hrun
      rw [run_bind_of_error hrun]
      exact ⟨⟨_, rfl⟩, rfl, rfl⟩

/-- Behind the token nothing is refused because of it, and a request that is unfit is refused before
anything is touched. -/
theorem run_prompt {α : Type} {x : Procedure α} (hx : x.Prompt) (s : Site κ ℓ) :
    (¬∃ reason, (s.run B L x).1 = .error (.authentication reason)) ∧
      ∀ e, (s.run B L x).1 = .error e → e.IsUnfit → s.Untouched (s.run B L x).2 := by
  obtain ⟨es, hordered, huntouched⟩ := run_untouched (B := B) (L := L) hx s
  constructor
  · rintro ⟨reason, hreason⟩
    exact (hordered _ hreason).1 trivial
  · intro e he hunfit
    exact huntouched ((hordered e he).2 hunfit)

/-- An operation with an access token is refused because of the token exactly if the token is not
accepted. -/
theorem run_guarded {α : Type} {x : Procedure α} {token : String}
    (hx : Guarded tokens token .access x) (s : Site κ ℓ) :
    ((∃ reason, (s.run B L x).1 = .error (.authentication reason)) ↔
      ¬∃ c, tokens.parse (Timestamp.ofNanos (B.clock s.backing)).seconds token = .ok c ∧
        c.kind = .access) ∧
      ∀ e, (s.run B L x).1 = .error e → e.IsUnfit → s.Untouched (s.run B L x).2 := by
  obtain ⟨rest, rfl, hrest⟩ := hx
  by_cases haccepted : ∃ c,
      tokens.parse (Timestamp.ofNanos (B.clock s.backing)).seconds token = .ok c ∧ c.kind = .access
  · obtain ⟨c, hparse, hkind⟩ := haccepted
    rw [run_bind_of_ok (run_claims_of_ok tokens hparse hkind)]
    -- what is behind the token does not refuse because of it
    obtain ⟨hnot, huntouched⟩ := run_prompt (B := B) (L := L) (hrest c) s
    exact ⟨iff_of_false hnot fun h => h ⟨c, hparse, hkind⟩, huntouched⟩
  · obtain ⟨hrefused, huntouched⟩ := run_claims_refused_bind (L := L) (f := rest) haccepted
    exact ⟨iff_of_true hrefused haccepted, fun _ _ _ => huntouched⟩

/-- A new pair of tokens is refused because of the issuer or not at all, and touches nothing. -/
theorem run_issue (tokens : TokenIssuer) (request : IssueRequest) (refreshed : Bool)
    (s : Site κ ℓ) :
    ((∃ reason, (s.run B L (issue tokens request refreshed)).1 = .error (.authentication reason)) ↔
      ∃ e, tokens.issue (Timestamp.ofNanos (B.clock s.backing)).seconds request = .error e) ∧
      s.Untouched (s.run B L (issue tokens request refreshed)).2 := by
  obtain ⟨es, hes, huntouched⟩ := run_untouched (B := B) (L := L)
    (tells_issue tokens request refreshed) s
  refine ⟨?_, huntouched hes⟩
  unfold issue
  rw [run_bind_of_ok (a := .ofNanos (B.clock s.backing)) (t := s) rfl]
  cases tokens.issue (Timestamp.ofNanos (B.clock s.backing)).seconds request with
  | error e => exact iff_of_true ⟨_, rfl⟩ ⟨e, rfl⟩
  | ok pair => exact iff_of_false (fun ⟨_, h⟩ => nomatch h) fun ⟨_, h⟩ => nomatch h

/-- A pair is renewed unless the refresh token is not accepted or the issuer refuses the next pair;
nothing is touched either way. -/
theorem run_refresh (token : String) (s : Site κ ℓ) :
    ((∃ reason, (s.run B L (refresh tokens token)).1 = .error (.authentication reason)) ↔
      (¬∃ c, tokens.parse (Timestamp.ofNanos (B.clock s.backing)).seconds token = .ok c ∧
        c.kind = .refresh) ∨
      ∃ c e, tokens.parse (Timestamp.ofNanos (B.clock s.backing)).seconds token = .ok c ∧
        tokens.issue (Timestamp.ofNanos (B.clock s.backing)).seconds
          ⟨c.subject, c.role, c.tag⟩ = .error e) ∧
      s.Untouched (s.run B L (refresh tokens token)).2 := by
  by_cases haccepted : ∃ c,
      tokens.parse (Timestamp.ofNanos (B.clock s.backing)).seconds token = .ok c ∧
        c.kind = .refresh
  · obtain ⟨c, hparse, hkind⟩ := haccepted
    have hrun : s.run B L (refresh tokens token) =
        s.run B L (issue tokens ⟨c.subject, c.role, c.tag⟩ true) :=
      run_bind_of_ok (run_claims_of_ok tokens hparse hkind)
    obtain ⟨hissue, huntouched⟩ := run_issue (B := B) (L := L) tokens
      ⟨c.subject, c.role, c.tag⟩ true s
    rw [hrun, hissue]
    refine ⟨⟨fun ⟨e, he⟩ => Or.inr ⟨c, e, hparse, he⟩, ?_⟩, huntouched⟩
    rintro (hrefused | ⟨c', e, hparse', he⟩)
    · exact absurd ⟨c, hparse, hkind⟩ hrefused
    -- the claims that a token parses as are the only ones
    · rw [hparse] at hparse'
      cases hparse'
      exact ⟨e, he⟩
  · obtain ⟨hrefused, huntouched⟩ := run_claims_refused_bind (L := L)
      (f := fun c => issue tokens ⟨c.subject, c.role, c.tag⟩ true) haccepted
    exact ⟨iff_of_true hrefused (Or.inl haccepted), huntouched⟩

/-- An operation that finds a request unfit has touched nothing. -/
theorem run_serve_unfit {e : ApiError} (he : (s.run B L (serve tokens op)).1 = .error e)
    (hunfit : e.IsUnfit) : s.Untouched (s.run B L (serve tokens op)).2 := by
  cases op with
  | issue request => exact (run_issue tokens request false s).2
  | refresh token => exact (run_refresh token s).2
  | canAccessByKey channel key =>
      exact (run_prompt (prompt_canAccessByKey channel key) s).2 e he hunfit
  | canAccessById channel client =>
      exact (run_prompt (spares_canAccessById channel client).prompt s).2 e he hunfit
  | identifyThing key => exact (run_prompt (prompt_identifyThing key) s).2 e he hunfit
  | _ => exact (run_guarded (guarded_serve rfl rfl) s).2 e he hunfit

/-- The same within the layers: nothing is published of an operation that fails. -/
theorem run_compose_unfit {e : ApiError} (c : PublisherConfig)
    (he : (s.run B L (compose tokens c op)).1 = .error e) (hunfit : e.IsUnfit) :
    s.Untouched (s.run B L (compose tokens c op)).2 := by
  rcases hserve : s.run B L (serve tokens op) with ⟨r, t⟩
  obtain ⟨u, nanos, hrun, hback, houtbox, -, -⟩ := run_compose tokens c hserve
  rw [hrun] at he ⊢
  obtain rfl : r = .error e := he
  obtain ⟨hback', houtbox'⟩ : s.Untouched t := by
    have herror : (s.run B L (serve tokens op)).1 = .error e := by rw [hserve]
    have hbare := run_serve_unfit herror hunfit
    rwa [hserve] at hbare
  exact ⟨hback.trans hback', houtbox.trans houtbox'⟩

/-- A token is not accepted if it does not parse or is of the other kind. -/
theorem not_accepted_iff {time : Int} {token : String} {kind other : TokenKind}
    (hother : ∀ k : TokenKind, k ≠ kind ↔ k = other) :
    (¬∃ c, tokens.parse time token = .ok c ∧ c.kind = kind) ↔
      (∃ e, tokens.parse time token = .error e) ∨
        ∃ c, tokens.parse time token = .ok c ∧ c.kind = other := by
  cases hparse : tokens.parse time token with
  | error e => exact iff_of_true (fun ⟨_, h, _⟩ => nomatch h) (Or.inl ⟨e, rfl⟩)
  | ok c =>
      constructor
      · intro h
        exact Or.inr ⟨c, rfl, (hother c.kind).1 fun hkind => h ⟨c, rfl, hkind⟩⟩
      · rintro (⟨e, he⟩ | ⟨c', hc', hkind⟩)
        · cases he
        · cases hc'
          rintro ⟨c'', hc'', hkind'⟩
          cases hc''
          exact (hother c.kind).2 hkind hkind'

/-- **The gate.**  Whatever is behind the service: an operation is refused because of its token
exactly if the token does not parse or is of the wrong kind, or, for `refresh`, if the issuer
refuses the next pair.  And whatever the operation, a request that is refused as unfit, by the
engine or within the layers, has touched nothing. -/
theorem gate (tokens : TokenIssuer) (c : PublisherConfig) (B : Backing κ) (L : EventLog ℓ)
    (s : Site κ ℓ) :
    let now := (Timestamp.ofNanos (B.clock s.backing)).seconds
    (∀ op token, op.token? = some token → (op ≠ .refresh token) →
      ((∃ reason, (s.run B L (serve tokens op)).1 = .error (.authentication reason)) ↔
        (∃ e, tokens.parse now token = .error e) ∨
          ∃ c, tokens.parse now token = .ok c ∧ c.kind = .refresh)) ∧
    (∀ token,
      (∃ reason, (s.run B L (serve tokens (.refresh token))).1 = .error (.authentication reason)) ↔
        (∃ e, tokens.parse now token = .error e) ∨
        (∃ c, tokens.parse now token = .ok c ∧ c.kind = .access) ∨
          ∃ c e, tokens.parse now token = .ok c ∧
            tokens.issue now ⟨c.subject, c.role, c.tag⟩ = .error e) ∧
    ∀ op, ∀ service ∈ [serve tokens, compose tokens c], ∀ e,
      (s.run B L (service op)).1 = .error e → e.IsUnfit →
        s.Untouched (s.run B L (service op)).2 := by
  intro now
  refine ⟨?_, ?_, ?_⟩
  · intro op token htoken hop
    have hkind : op.tokenKind = .access := by
      cases op with
      | refresh => exact absurd (congrArg _ (Option.some.inj htoken)) hop
      | _ => rfl
    rw [(run_guarded (guarded_serve htoken hkind) s).1]
    exact not_accepted_iff fun k => by cases k <;> decide
  · intro token
    refine (run_refresh token s).1.trans ?_
    rw [not_accepted_iff fun k => (by cases k <;> decide : _ ↔ k = .access), or_assoc]
  · intro op service hservice e he hunfit
    rcases List.mem_pair.1 hservice with rfl | rfl
    · exact run_serve_unfit he hunfit
    · exact run_compose_unfit c he hunfit

/-- A refresh token names nobody to an operation, an access token is good for no pair, and neither
is a refresh token of nobody.  What is no type of entities is refused before anything is touched. -/
theorem gate_marked :
    let s : Site World MemoryLog := fresh (.empty 60000000000 0) .empty
    let run (op : Operation) := s.run .memory MemoryLog.eventLog (serve .marked op)
    let refused (op : Operation) : Prop := ∃ reason, (run op).1 = .error (.authentication reason)
    refused (.identify "!reader") ∧ ¬refused (.identify "reader") ∧ refused (.refresh "reader") ∧
      refused (.refresh "!") ∧ ¬refused (.refresh "!reader") ∧
      (run (.authorize "reader" "lamp" "l" "m_read")).1 = .error (.invalidEntityType "lamp") ∧
      s.Untouched (run (.authorize "reader" "lamp" "l" "m_read")).2 := by
  intro s run refused
  obtain ⟨haccess, hrefresh, huntouched⟩ := gate .marked {} .memory MemoryLog.eventLog s
  refine ⟨?_, ?_, ?_, ?_, ?_, rfl, ?_⟩
  · exact (haccess (.identify "!reader") _ rfl nofun).2 (Or.inr ⟨_, rfl, rfl⟩)
  · rintro h
    rcases (haccess (.identify "reader") _ rfl nofun).1 h with ⟨_, h⟩ | ⟨_, h, hkind⟩
    · cases h
    · cases h
      cases hkind
  · exact (hrefresh "reader").2 (Or.inr (Or.inl ⟨_, rfl, rfl⟩))
  · exact (hrefresh "!").2 (Or.inr (Or.inr ⟨_, _, rfl, rfl⟩))
  · rintro h
    rcases (hrefresh "!reader").1 h with ⟨_, h⟩ | ⟨_, h, hkind⟩ | ⟨_, _, h, hissue⟩
    · cases h
    · cases h
      cases hkind
    · cases h
      cases hissue
  · exact huntouched (.authorize "reader" "lamp" "l" "m_read") _ List.mem_cons_self _ rfl trivial

end Site

end Gatehouse
