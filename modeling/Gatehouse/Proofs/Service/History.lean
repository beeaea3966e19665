import Gatehouse.Proofs.Service.World
import Gatehouse.Service.Engine

/-!
# Gatehouse.Proofs.Service.History — operations one after the other

A history is a list of operations, each with the time that passes before it.  It begins in a world
that was just opened: over any store that calls can reach, with empty caches, and with no step that
is planned to fail.

Most results on the service are stated after every history and after some more time, of the next
operation.  That covers every state that the service can be in while one operation is run after the
other, with entries in the caches that are live, expired or never asked for again; and since the
beginning may be any store that calls can reach, it covers a service that is started over data of an
earlier one.

`TokenIssuer.named` is an issuer for examples.  It takes an access token for the name of its bearer,
so that an example need not have signed tokens in it.
-/

namespace Gatehouse

open Gatehouse.Time

/-- An issuer whose access tokens are the names of users. -/
def TokenIssuer.named : TokenIssuer where
  issue _ request := .ok ⟨request.subject, request.subject⟩
  parse _ token := .ok ⟨token, .user, "", .access, 0, 0⟩

/-- An operation and the nanoseconds that pass before it. -/
structure Visit where
  wait : Nat
  op : Operation

namespace World

/-- A store that calls can reach behind caches that hold nothing. -/
structure Opened (w : World) : Prop where
  store : w.store.Built
  caches : ∃ policyTtl clientTtl connectionTtl,
    w.caches = .empty policyTtl clientTtl connectionTtl
  faults : w.faults = []

/-- A world that was just opened is sound. -/
theorem Opened.sound {w : World} (h : w.Opened) : w.Sound := ⟨h.faults, h.store.sound⟩

/-- A world over an empty store was just opened. -/
theorem opened_empty (cacheTtl clock : Nat) : (empty cacheTtl clock).Opened :=
  ⟨.empty, ⟨cacheTtl, cacheTtl, cacheTtl, rfl⟩, rfl⟩

/-- The world when some time has passed. -/
def elapse (w : World) (nanos : Nat) : World := { w with clock := w.clock + nanos }

/-- The world after a history.  Time passes first, and then the operation is run from the beginning
to the end. -/
def after (tokens : TokenIssuer) : List Visit → World → World
  | [], w => w
  | v :: rest, w => after tokens rest ((w.elapse v.wait).run (Engine.serve tokens v.op)).2

/-- Time changes nothing that is sound. -/
theorem Sound.elapse {w : World} (h : w.Sound) (nanos : Nat) : (w.elapse nanos).Sound :=
  ⟨h.faults, h.store⟩

/-- A token that is accepted is read, and no trace of it is left. -/
theorem run_claims_of_ok {w : World} {tokens : TokenIssuer} {token : String} {kind : TokenKind}
    {c : Claims} (hparse : tokens.parse (Timestamp.ofNanos w.clock).seconds token = .ok c)
    (hkind : c.kind = kind) : w.run (Engine.claims tokens token kind) = (.ok c, w) := by
  refine (run_bind_of_ok run_now).trans ?_
  rw [hparse]
  show w.run (if c.kind = kind then _ else _) = _
  rw [if_pos hkind]
  rfl

end World

end Gatehouse
