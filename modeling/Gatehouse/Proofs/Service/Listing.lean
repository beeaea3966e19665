import Gatehouse.Proofs.Cache.Authorization
import Gatehouse.Proofs.Service.Effect

/-!
# Gatehouse.Proofs.Service.Listing — a listing of policies leaks nothing

Who is no admin is shown the policies that are theirs.  The filter by owner comes before the count
and before the page is cut, and it takes the place of a filter that the query brings along.  So what
is shown is a page of the caller's own policies (`page_owner`), and between two stores that agree on
these there is nothing to be told apart: neither the policies nor their order, number or place in
the listing.

The result compares two worlds.  They may differ in anything that is not a policy of the caller, and
nothing relates the operations that led to them; an answer that were different in the two would tell
the caller something about policies of others.  What is the same is the whole answer, so errors,
totals and the numbers of the page are covered without being named one by one.

It is not said that the caller learns nothing by other means.  A policy that cannot be added because
its key is taken tells that there is one, and how long a listing takes is no part of an answer.
-/

namespace Gatehouse

open Gatehouse.Time

/-! ## The policies of an owner -/

/-- The policies of one owner out of a table. -/
def Table.ownedBy (policies : Table PolicyKey Policy) (owner : String) : Table PolicyKey Policy :=
  policies.eraseWhere fun _ p => p.owner ≠ owner

namespace Store

variable {s s' : Store} {owner : String}

/-- Whether two stores hold the same policies of an owner. -/
def SameOwned (owner : String) (s s' : Store) : Prop :=
  ∀ key p, p.owner = owner →
    (s.policies.lookup key = some p ↔ s'.policies.lookup key = some p)

/-- The policies of an owner are those under which their name stands. -/
theorem lookup_ownedBy {policies : Table PolicyKey Policy} {key : PolicyKey} {p : Policy} :
    (policies.ownedBy owner).lookup key = some p ↔
      policies.lookup key = some p ∧ p.owner = owner := by
  rw [Table.ownedBy, Table.lookup_eraseWhere, Option.filter_eq_some_iff]
  simp

/-- Two stores hold the same policies of an owner if their tables of these are equal. -/
theorem sameOwned_iff :
    SameOwned owner s s' ↔ s.policies.ownedBy owner = s'.policies.ownedBy owner := by
  constructor
  · intro h
    refine Table.ext_lookup fun key => Option.ext fun p => ?_
    rw [lookup_ownedBy, lookup_ownedBy]
    exact and_congr_left fun howner => h key p howner
  · intro h key p howner
    have hboth : (s.policies.ownedBy owner).lookup key = some p ↔
        (s'.policies.ownedBy owner).lookup key = some p := by rw [h]
    rw [lookup_ownedBy, lookup_ownedBy] at hboth
    simpa [howner] using hboth

/-- The policies of an owner stand in the order of all policies. -/
theorem values_ownedBy (policies : Table PolicyKey Policy) :
    (policies.ownedBy owner).values = policies.values.filter fun p => p.owner = owner := by
  unfold Table.ownedBy Table.eraseWhere Table.values
  rw [List.filter_map]
  congr 1
  refine List.filter_congr fun e _ => ?_
  simp

end Store

namespace PolicyQuery

/-- What the filter by an owner lets through is the owner's, and passes the other filters. -/
theorem admits_owner (q : PolicyQuery) (owner : String) (p : Policy) :
    { q with owner := some owner }.admits p =
      (decide (p.owner = owner) && { q with owner := none }.admits p) := by
  simp [admits, Bool.and_assoc, eq_comm]

/-- A page of the policies of an owner is a page of a table that has no others. -/
theorem page_owner (q : PolicyQuery) (policies : Table PolicyKey Policy) (owner : String) :
    { q with owner := some owner }.page policies.values =
      { q with owner := none }.page (policies.ownedBy owner).values := by
  have hfound : policies.values.filter { q with owner := some owner }.admits =
      (policies.ownedBy owner).values.filter { q with owner := none }.admits := by
    rw [Store.values_ownedBy, List.filter_filter]
    refine List.filter_congr fun p _ => ?_
    rw [admits_owner, Bool.and_comm]
  unfold page
  rw [hfound]
  rfl

end PolicyQuery

/-! ## Listings -/

namespace World

variable {w w' : World} {tokens : TokenIssuer} {token : String} {claims : Claims}

/-- Whether a token shows a world who its bearer is. -/
def Admits (tokens : TokenIssuer) (w : World) (token : String) (claims : Claims) : Prop :=
  tokens.parse (Timestamp.ofNanos w.clock).seconds token = .ok claims ∧ claims.kind = .access

/-- The answer to who is no admin: a page of their own policies, unless the query asks for an action
that does not exist. -/
theorem run_listPolicies (h : w.Reliable) (hbearer : w.Admits tokens token claims)
    (huser : claims.isAdmin = false) (query : PolicyQuery) :
    (w.run (Engine.serve tokens (.listPolicies token query))).1 =
      match query.validate with
      | .error e => .error (.ofPolicy e)
      | .ok () =>
        .ok ({ query with owner := none }.page
          (w.store.policies.ownedBy claims.subject).values) := by
  refine (congrArg Prod.fst (run_bind_of_ok (run_caller hbearer.1 hbearer.2))).trans ?_
  cases hvalid : query.validate with
  | error e => rfl
  | ok =>
      show ((w.answerStore (.policyPage (if claims.isAdmin = true then query else
        { query with owner := some claims.subject }))).1.mapError ApiError.ofStorage) = _
      rw [huser, answerStore_of_reliable h, ← PolicyQuery.page_owner]
      rfl

/-- **A listing leaks nothing.**  In two worlds whose stores hold the same policies of a subject and
may differ in all else, a token of that subject, who is no admin, gets the same answer to every
query, whichever owner it asks for: the same error, or the same policies in the same order with the
same total, offset and limit.  The answer is a page of the policies that the subject owns. -/
theorem listing_leaks_nothing (tokens : TokenIssuer) (h : w.Reliable) (h' : w'.Reliable)
    (hbearer : w.Admits tokens token claims) (hbearer' : w'.Admits tokens token claims)
    (huser : claims.isAdmin = false) (hsame : Store.SameOwned claims.subject w.store w'.store)
    (query : PolicyQuery) :
    (w.run (Engine.serve tokens (.listPolicies token query))).1 =
        (w'.run (Engine.serve tokens (.listPolicies token query))).1 ∧
      (w.run (Engine.serve tokens (.listPolicies token query))).1 =
        match query.validate with
        | .error e => .error (.ofPolicy e)
        | .ok () => .ok ({ query with owner := none }.page
            (w.store.policies.values.filter fun p => p.owner = claims.subject)) := by
  have hanswer := run_listPolicies h hbearer huser query
  have hanswer' := run_listPolicies h' hbearer' huser query
  constructor
  · rw [hanswer, hanswer', Store.sameOwned_iff.1 hsame]
  · rw [hanswer, Store.values_ownedBy]

/-- No history makes a store fail by itself. -/
theorem reliable_after (h : w.Reliable) (tokens : TokenIssuer) (visits : List Visit) :
    (w.after tokens visits).Reliable :=
  (h.keeps_after (P := fun _ => True) trivial (fun _ _ _ _ => trivial) visits).1

/-- Ann lets Bob read a meter and a pump. -/
def annsPolicies : List Visit :=
  [⟨0, .addPolicy "ann" ⟨"", "bob", "meter", ["m_read"], ⟨0, 0⟩, ⟨0, 0⟩, ""⟩⟩,
   ⟨0, .addPolicy "ann" ⟨"", "bob", "pump", ["m_read"], ⟨0, 0⟩, ⟨0, 0⟩, ""⟩⟩]

/-- What Eve does in the one world and not in the other: policies before and after those of Ann in
the order of keys, and one between them. -/
def evesPolicies : List Visit :=
  ["ann", "bob", "bob2", "abe"].map fun subject =>
    ⟨1, .addPolicy "eve" ⟨"", subject, "motor", ["m_read"], ⟨0, 0⟩, ⟨0, 0⟩, ""⟩⟩

/-- Ann asks for the second of Eve's policies and is told of the second of her own, in both
worlds. -/
theorem listing_hides_eve :
    let w := (empty 60000000000 0).after .named annsPolicies
    let w' := w.after .named evesPolicies
    let query : PolicyQuery := { offset := 1, limit := 1, owner := some "eve", action := "m_read" }
    let answer (w : World) := (w.run (Engine.serve .named (.listPolicies "ann" query))).1
    w'.store.policies.size = 6 ∧ Store.SameOwned "ann" w.store w'.store ∧
      (answer w).map (fun page : PolicyPage => (page.total, page.policies.map (·.object))) =
        .ok (2, ["pump"]) ∧ answer w' = answer w := by
  intro w w' query answer
  have hsame : Store.SameOwned "ann" w.store w'.store := Store.sameOwned_iff.2 (by decide +kernel)
  have hw : w.Reliable := reliable_after (fun _ => rfl) .named _
  have hw' : w'.Reliable := reliable_after hw .named _
  have hann : w.Admits .named "ann" ⟨"ann", .user, "", .access, 0, 0⟩ := ⟨rfl, rfl⟩
  have hann' : w'.Admits .named "ann" ⟨"ann", .user, "", .access, 0, 0⟩ := ⟨rfl, rfl⟩
  obtain ⟨hequal, hpage⟩ := listing_leaks_nothing .named hw hw' hann hann' rfl hsame query
  refine ⟨by decide +kernel, hsame, ?_, hequal.symm⟩
  show Except.map _ (w.run (Engine.serve .named (.listPolicies "ann" query))).1 = _
  rw [hpage]
  decide +kernel

end World

end Gatehouse
