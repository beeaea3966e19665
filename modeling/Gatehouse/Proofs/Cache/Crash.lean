import Gatehouse.Config.Load
import Gatehouse.Proofs.Cache.Concurrency
import Gatehouse.Proofs.Store.Forest
import Gatehouse.Proofs.Store.Writes
import Gatehouse.Proofs.Token.RoundTrip

/-!
# Gatehouse.Proofs.Cache.Crash — entries that would outlive the clock

The clock of the caches counts seconds in a signed word of 64 bits.  To put an entry whose expiry it
cannot tell is no failure that could be answered: it is a crash.  `Caches.canAnswer` says which
calls can be carried out at an instant, and an operation in progress `Crashes` if it is about to
make one that cannot.

No step changes a time to live (`Engine.ttls_play`), so the times to live of a configuration decide:
if the clock can tell the end of each of them (`CacheConfig.Lasts`), no schedule of operations leads
to a crash; if it cannot, one of three operations crashes.  What makes a configuration acceptable is
of no help, since it does not look at these times (`crash_free_iff`).

A crash is not a step of the model.  It is a property of a state in which somebody is about to take
a step that has no outcome, which is as much as needs to be said: nothing that would come after it
is claimed.  The clock of the caches begins at some origin, not in 1970, and only how far it has
come since matters; the origin is therefore a parameter, as is the instant up to which freedom from
crashes is asked for.

* `crashFree_of_lasts` is an invariant argument: no schedule changes a time to live, and an instant
  that is no later than the last one is no worse.
* `lasts_of_crashFree` shows one operation for each of the three bounds.  All are run in one world,
  in which a client is connected to itself (`pumping`), and each reaches its put in at most three
  steps.
-/

namespace Gatehouse

open Gatehouse.Time

/-! ## Calls that can be carried out -/

namespace TtlMap

variable {κ α : Type} [Ord κ] {m : TtlMap κ α} {secs now later : Nat}

/-- A time to live in whole seconds adds to the seconds of the clock. -/
theorem canExpire_iff (h : m.ttl = secs * 1000000000) :
    m.canExpire now = true ↔ now / 1000000000 + secs < Word.bound 63 := by
  rw [canExpire, h, Nat.add_mul_div_right _ _ (by decide), decide_eq_true_iff]

/-- What can be put at an instant could be put before. -/
theorem canExpire_of_le (hle : now ≤ later) (h : m.canExpire later = true) :
    m.canExpire now = true := by
  rw [canExpire, decide_eq_true_iff] at h ⊢
  exact Nat.lt_of_le_of_lt (Nat.div_le_div_right (Nat.add_le_add_right hle _)) h

end TtlMap

namespace Caches

/-- Whether a call can be carried out at an instant: one that puts an entry needs a clock that can
tell when the entry expires. -/
def canAnswer (s : Caches) (now : Nat) : CacheCall → Bool
  | .putPolicy _ => s.policies.canExpire now
  | .putClient _ _ => s.clients.canExpire now
  | .connect _ => s.connections.canExpire now
  | _ => true

/-- How long the entries of the three caches last. -/
def ttls (s : Caches) : Nat × Nat × Nat := (s.policies.ttl, s.clients.ttl, s.connections.ttl)

theorem ttls_answer (s : Caches) (now : Nat) (c : CacheCall) :
    (s.answer now c).2.ttls = s.ttls := by
  obtain ⟨hpolicies, hclients, hconnections⟩ := s.ttl_answer now c
  unfold ttls
  rw [hpolicies, hclients, hconnections]

/-- Whether every call can be carried out at an instant. -/
structure Expires (s : Caches) (now : Nat) : Prop where
  policies : s.policies.canExpire now = true
  clients : s.clients.canExpire now = true
  connections : s.connections.canExpire now = true

theorem canAnswer_of_expires {s : Caches} {now : Nat} (h : s.Expires now) (c : CacheCall) :
    s.canAnswer now c = true := by
  cases c with
  | putPolicy => exact h.policies
  | putClient => exact h.clients
  | connect => exact h.connections
  | policy | removePolicy | clientOf | removeClient | isConnected | disconnect
  | disconnectAll => rfl

/-- It only matters how long entries last, and an earlier instant is no worse. -/
theorem Expires.of_ttls {s t : Caches} {now later : Nat} (h : s.Expires later)
    (httls : t.ttls = s.ttls) (hle : now ≤ later) : t.Expires now := by
  obtain ⟨hpolicies, hclients, hconnections⟩ := h
  simp only [ttls, Prod.mk.injEq] at httls
  obtain ⟨hpolicyTtl, hclientTtl, hconnectionTtl⟩ := httls
  refine ⟨TtlMap.canExpire_of_le hle ?_, TtlMap.canExpire_of_le hle ?_,
    TtlMap.canExpire_of_le hle ?_⟩
  · rw [TtlMap.canExpire, hpolicyTtl]
    exact hpolicies
  · rw [TtlMap.canExpire, hclientTtl]
    exact hclients
  · rw [TtlMap.canExpire, hconnectionTtl]
    exact hconnections

end Caches

/-- Whether the clock can tell the end of each time to live that begins at an instant. -/
structure CacheConfig.Lasts (c : CacheConfig) (instant : Nat) : Prop where
  policies : instant / 1000000000 + c.policyTtl < Word.bound 63
  keys : instant / 1000000000 + c.keyTtl < Word.bound 63
  connectivity : instant / 1000000000 + c.connectivityTtl < Word.bound 63

theorem CacheConfig.expires_caches_iff (c : CacheConfig) (instant : Nat) :
    c.caches.Expires instant ↔ c.Lasts instant := by
  constructor
  · rintro ⟨hpolicies, hclients, hconnections⟩
    exact ⟨(TtlMap.canExpire_iff rfl).1 hpolicies, (TtlMap.canExpire_iff rfl).1 hclients,
      (TtlMap.canExpire_iff rfl).1 hconnections⟩
  · rintro ⟨hpolicies, hkeys, hconnectivity⟩
    exact ⟨(TtlMap.canExpire_iff rfl).2 hpolicies, (TtlMap.canExpire_iff rfl).2 hkeys,
      (TtlMap.canExpire_iff rfl).2 hconnectivity⟩

/-! ## Crashes -/

/-- The call to the caches that a program is about to make. -/
def Program.cacheCall? {α : Type} : Program service α → Option CacheCall
  | .ask (.cache c) _ => some c
  | _ => none

namespace Engine

/-- Whether an operation in progress is about to make a call to the caches that cannot be carried
out; the clock of the caches began to count at `origin`. -/
def Crashes (origin : Nat) (p : Bustle) : Prop :=
  ∃ f ∈ p.flights, ∃ c ∈ f.rest.cacheCall?,
    p.state.caches.canAnswer (p.state.clock - origin) c = false

/-- No crash has happened or is about to happen, wherever operations over an opened world lead by an
instant `last` of the clock of the caches. -/
def CrashFree (tokens : TokenIssuer) (c : CacheConfig) (origin last : Nat) : Prop :=
  ∀ (w : World) (schedule : List (Turn Operation Nat)), w.Opened → w.caches = c.caches →
    let p := (engine tokens).play schedule (.opening w)
    p.state.clock ≤ origin + last → ¬Crashes origin p

variable (tokens : TokenIssuer)

/-- **One step** leaves the times to live alone. -/
theorem ttls_answer (w : World) (c : ServiceCall) :
    (w.answer c).2.caches.ttls = w.caches.ttls := by
  cases c with
  | cache c =>
      show (w.answerCache c).2.caches.ttls = _
      unfold World.answerCache
      split
      · rfl
      · exact w.caches.ttls_answer _ _
  | store c =>
      show (w.answerStore c).2.caches.ttls = _
      unfold World.answerStore
      split <;> rfl
  | journal c => cases c <;> rfl
  | clock | freshId | note | countLookup | countCall | countRequest | countOutcome | counts => rfl

/-- **A schedule** leaves the times to live alone. -/
theorem ttls_play (schedule : List (Turn Operation Nat)) (p : Bustle) :
    ((engine tokens).play schedule p).state.caches.ttls = p.state.caches.ttls := by
  refine (engine tokens).play_keeps (P := fun p' => p'.state.caches.ttls = p.state.caches.ttls)
    ?_ ?_ ?_ ?_ schedule rfl
  · exact fun _ _ _ _ _ h => h
  · exact fun _ _ _ _ _ _ _ h => h
  · exact fun s _ _ _ _ _ c _ h => (ttls_answer s c).trans h
  · exact fun _ _ _ _ _ h => h

/-- A configuration whose times to live end within the clock leads to no crash. -/
theorem crashFree_of_lasts {c : CacheConfig} {origin last : Nat} (h : c.Lasts last) :
    CrashFree tokens c origin last := by
  rintro w schedule - hcaches p hclock ⟨f, -, call, -, hcrash⟩
  have httls : p.state.caches.ttls = c.caches.ttls := hcaches ▸ ttls_play tokens schedule _
  have hexpires : p.state.caches.Expires (p.state.clock - origin) :=
    ((c.expires_caches_iff last).2 h).of_ttls httls (Nat.sub_le_iff_le_add'.2 hclock)
  cases (Caches.canAnswer_of_expires hexpires call).symm.trans hcrash

/-! ## Operations that crash -/

/-- A client that is connected to itself. -/
def pump : Client := ⟨"pump", "", "pump", "key", .enabled, ⟨0, 0⟩, ⟨0, 0⟩⟩

/-- The policy of the owner of the pump, which is the pump. -/
def pumpPolicy : Policy :=
  ⟨"pump", "pump", "pump", clientActions, ⟨0, 0⟩, ⟨0, 0⟩, "pump"⟩

/-- A world with the pump in it. -/
def pumping (s : Caches) (clock : Nat) : World :=
  { World.empty 0 clock with
    store := Store.answering [.addClient pump, .addPolicy pumpPolicy], caches := s }

theorem opened_pumping (c : CacheConfig) (clock : Nat) : (pumping c.caches clock).Opened :=
  ⟨Store.built_answering _, ⟨_, _, _, rfl⟩, rfl⟩

/-- An operation arrives and takes some steps. -/
def firstSteps (op : Operation) (steps : Nat) : List (Turn Operation Nat) :=
  .start op :: List.replicate steps (.move 0)

/-- Whether a token is accepted from a caller at a time in nanoseconds. -/
def Accepted (token : String) (clock : Nat) : Prop :=
  ∃ claims, tokens.parse (Timestamp.ofNanos clock).seconds token = .ok claims ∧
    claims.kind = .access

/-- After its first step an operation knows its caller. -/
theorem play_caller {op : Operation} {token : String} {f : Claims → Procedure op.Answer}
    (hop : serve tokens op = caller tokens token >>= f) {w : World} {claims : Claims}
    (hparse : tokens.parse (Timestamp.ofNanos w.clock).seconds token = .ok claims)
    (hkind : claims.kind = .access) :
    (engine tokens).play (firstSteps op 1) (.opening w) =
      ⟨w, [⟨op, (f claims).run⟩], [op], []⟩ := by
  have hplay : (engine tokens).play (firstSteps op 1) (.opening w) =
      (engine tokens).move 0 ⟨w, [⟨op, (serve tokens op).run⟩], [op], []⟩ := rfl
  -- the step sees no more of the issuer than what it reads of this token at this time
  have hread : ∀ read, tokens.parse (Timestamp.ofNanos w.clock).seconds token = read →
      (engine tokens).move 0 ⟨w, [⟨op, (caller tokens token >>= f).run⟩], [op], []⟩ =
        (engine tokens).move 0
          ⟨w, [⟨op, (caller ⟨tokens.issue, fun _ _ => read⟩ token >>= f).run⟩], [op], []⟩ := by
    rintro _ rfl
    rfl
  obtain ⟨subject, role, tag, kind, issuedAt, expiresAt⟩ := claims
  obtain rfl : kind = .access := hkind
  rw [hplay, hop, hread _ hparse]
  rfl

/-- The policy that would be put is stored already. -/
theorem crashes_addPolicy {token : String} {c : CacheConfig} {origin clock : Nat}
    (htoken : Accepted tokens token clock)
    (h : c.caches.policies.canExpire (clock - origin) = false) :
    let p := (engine tokens).play (firstSteps (.addPolicy token lateGrant) 3)
      (.opening (pumping c.caches clock))
    Crashes origin p ∧ p.state.clock = clock ∧
      p.state.store.policies.lookup lateGrant.key ≠ none := by
  obtain ⟨claims, hparse, hkind⟩ := htoken
  have hplay : (engine tokens).play (firstSteps (.addPolicy token lateGrant) 3)
      (.opening (pumping c.caches clock)) = (engine tokens).play [.move 0, .move 0]
        ((engine tokens).play (firstSteps (.addPolicy token lateGrant) 1)
          (.opening (pumping c.caches clock))) := rfl
  rw [hplay, play_caller tokens rfl hparse hkind]
  let stored : Policy :=
    { lateGrant.normalize with
      owner := claims.subject, createdAt := .ofNanos clock, updatedAt := .ofNanos clock
      updatedBy := claims.subject }
  refine ⟨⟨_, List.mem_cons_self, _, rfl, h⟩, rfl, ?_⟩
  exact Store.lookup_answer_addPolicy (.ofNanos clock) (pumping c.caches clock).store stored

theorem crashes_identifyThing {c : CacheConfig} {origin clock : Nat}
    (h : c.caches.clients.canExpire (clock - origin) = false) :
    let p := (engine tokens).play (firstSteps (.identifyThing "key") 2)
      (.opening (pumping c.caches clock))
    Crashes origin p ∧ p.state.clock = clock :=
  ⟨⟨_, List.mem_cons_self, _, rfl, h⟩, rfl⟩

theorem crashes_canAccessById {c : CacheConfig} {origin clock : Nat}
    (h : c.caches.connections.canExpire (clock - origin) = false) :
    let p := (engine tokens).play (firstSteps (.canAccessById "pump" "pump") 3)
      (.opening (pumping c.caches clock))
    Crashes origin p ∧ p.state.clock = clock :=
  ⟨⟨_, List.mem_cons_self, _, rfl, h⟩, rfl⟩

/-- If no schedule leads to a crash by an instant, the clock can tell the end of each time to live
that begins then. -/
theorem lasts_of_crashFree {token : String} {c : CacheConfig} {origin last : Nat}
    (htoken : Accepted tokens token (origin + last)) (h : CrashFree tokens c origin last) :
    c.Lasts last := by
  have hinstant : origin + last - origin = last := Nat.add_sub_cancel_left _ _
  have hopened := opened_pumping c (origin + last)
  rw [← c.expires_caches_iff, ← hinstant]
  -- for each bound that is exceeded there is an operation that gets as far as the put
  refine ⟨?_, ?_, ?_⟩ <;> refine Bool.eq_true_of_not_eq_false fun hlate => ?_
  · obtain ⟨hcrash, hclock, -⟩ := crashes_addPolicy tokens htoken hlate
    exact h _ _ hopened rfl (Nat.le_of_eq hclock) hcrash
  · obtain ⟨hcrash, hclock⟩ := crashes_identifyThing tokens hlate
    exact h _ _ hopened rfl (Nat.le_of_eq hclock) hcrash
  · obtain ⟨hcrash, hclock⟩ := crashes_canAccessById tokens hlate
    exact h _ _ hopened rfl (Nat.le_of_eq hclock) hcrash

/-- **Crashes.**  Whether a configuration can be used does not depend on how long entries last.  And
no schedule of operations over an engine with its caches leads to a crash by some instant exactly if
the clock can tell the end of each of the three times to live that begins at this instant. -/
theorem crash_free_iff (c : Config) {token : String} {origin last : Nat}
    (htoken : Accepted tokens token (origin + last)) :
    (∀ cache, ({ c with cache } : Config).validate = c.validate) ∧
      (CrashFree tokens c.cache origin last ↔ c.cache.Lasts last) :=
  ⟨fun _ => rfl, lasts_of_crashFree tokens htoken, crashFree_of_lasts tokens⟩

/-! ## A configuration that crashes -/

/-- An environment with a secret, in which policies are to be remembered as long as can be said. -/
def foreverEnvironment : Environment := fun name =>
  if name = "CORRAL_TOKEN_SECRET" then some "s"
  else if name = "CORRAL_CACHE_POLICY_TTL_SECS" then some "18446744073709551615"
  else none

/-- The configuration of this environment. -/
def forever : Config where
  token := ⟨"s", "corral.auth", 3600, 86400⟩
  cache := ⟨18446744073709551615, 300, 300⟩

/-- The token of an owner that was issued in 1970. -/
def ownerToken : String := forever.token.write ⟨"owner", .user, "", .access, 0, 3600⟩

theorem accepted_ownerToken : Accepted forever.token.toIssuer ownerToken 0 := by
  let r : IssueRequest := ⟨"owner", .user, ""⟩
  have hfits : KeyedSigner.Fits 0 (forever.token.keyed.ttl .access) := ⟨by decide, by decide⟩
  have hparse := KeyedSigner.parse_write forever.token.keyed forever.token.keyed rfl rfl
    (Int.le_refl 0) (by decide : r.subject ≠ "") hfits 0
  exact ⟨_, hparse, rfl⟩

/-- **A configuration that can be used crashes.**  It comes from an environment with a secret and
one number; the owner of a meter adds a policy, which is stored, and then the engine crashes. -/
theorem forever_crashes :
    Config.load .none foreverEnvironment = .ok forever ∧
      let p := (engine forever.token.toIssuer).play (firstSteps (.addPolicy ownerToken lateGrant) 3)
        (.opening (pumping forever.cache.caches 0))
      Crashes 0 p ∧ p.state.store.policies.lookup lateGrant.key ≠ none := by
  have hlate : forever.cache.caches.policies.canExpire (0 - 0) = false := by decide
  obtain ⟨hcrash, -, hstored⟩ :=
    crashes_addPolicy forever.token.toIssuer accepted_ownerToken hlate
  exact ⟨by decide +kernel, hcrash, hstored⟩

/-- This configuration is not free of crashes at the very first instant; with the usual times to
live there is none for nine quintillion seconds. -/
theorem forever_not_crashFree :
    Accepted forever.token.toIssuer ownerToken (0 + 0) ∧
      ¬CrashFree forever.token.toIssuer forever.cache 0 0 ∧
      CrashFree .named {} 0 9000000000000000000000000000 := by
  refine ⟨accepted_ownerToken, fun hfree => ?_, ?_⟩
  · have hfirst : Accepted forever.token.toIssuer ownerToken (0 + 0) := accepted_ownerToken
    have hlasts := (crash_free_iff forever.token.toIssuer forever hfirst).2.1 hfree
    exact absurd hlasts.policies (by decide)
  · have hlater : Accepted .named "owner" (0 + 9000000000000000000000000000) := ⟨_, rfl, rfl⟩
    exact (crash_free_iff .named {} hlater).2.2 ⟨by decide, by decide, by decide⟩

end Engine

end Gatehouse
