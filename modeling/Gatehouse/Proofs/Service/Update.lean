import Gatehouse.Proofs.Service.Outcome

/-!
# Gatehouse.Proofs.Service.Update — what an update of a policy comes to

An update has five ends, and which one it comes to is read off two policies: the one that the caller
has on the object and the one that is to be updated.  They may be the same.

* `Updates` says what each end is and when it is come to.
* `updates_updatePolicy` : an update comes to one of them.
* `update_outcome` : so the five exclude each other in the order in which they are looked for, and
  an update that is carried out leaves one policy in three places: in the answer, in the store and
  in the cache.

The order of the ends can be seen by a caller.  The rank is looked at before the policy itself, so
whoever has no rank on an object is not told whether there is a policy of this subject on it; and
ownership is looked at last, so to be refused for it means that there is one.

Each end comes with the conditions of those before it.  Therefore it is enough to prove that an
update comes to one of them, and the theorem reads the equivalences off by cases: the answers of the
five differ, so an answer tells the end, and the conditions of the end tell what was so.
-/

namespace Gatehouse

open Gatehouse.Time

/-! ## Form and rank -/

/-- What is wrong with the form of a policy is said in the words for it. -/
theorem Policy.ofPolicy_of_validate {p : Policy} {e : PolicyError} (h : p.validate = .error e) :
    ApiError.ofPolicy e = .malformed e.message := by
  unfold validate at h
  split at h
  · cases h; rfl
  · split at h
    · cases h; rfl
    · split at h
      · cases h; rfl
      · split at h
        · cases h; rfl
        · cases h

namespace Store

/-- Whether a caller may hand on what a policy grants: as an admin, or by a policy of their own on
its object that carries all of its actions. -/
def Outranks (s : Store) (claims : Claims) (p : Policy) : Prop :=
  claims.isAdmin = true ∨
    ∃ own, s.policies.lookup ⟨claims.subject, p.object⟩ = some own ∧
      ∀ a ∈ p.actions, a ∈ own.actions

/-- Whoever does not outrank a policy is no admin and has no policy on the object that carries all
of its actions. -/
theorem not_outranks_iff {s : Store} {claims : Claims} {p : Policy} :
    ¬s.Outranks claims p ↔
      claims.isAdmin = false ∧ ¬∃ own, s.policies.lookup ⟨claims.subject, p.object⟩ = some own ∧
        ∀ a ∈ p.actions, a ∈ own.actions := by
  unfold Outranks
  rw [not_or, Bool.not_eq_true]

/-- To cover the actions in order is to carry each of those asked for. -/
theorem covers_iff {own : Option Policy} {actions : List String} :
    own.any (·.covers (Policy.normalizeActions actions)) = true ↔
      ∃ p, own = some p ∧ ∀ a ∈ actions, a ∈ p.actions := by
  simp [Option.any_eq_true, Policy.covers, Policy.hasAction, Policy.mem_normalizeActions]

/-- A policy that is stored is amended. -/
theorem answer_updatePolicy {s : Store} {now : Timestamp} {p old : Policy}
    (hold : s.policies.lookup p.key = some old) : s.answer now (.updatePolicy p) =
      (.ok (), { s with policies := s.policies.modify p.key (amend · p) }) := by
  have hcontained : s.policies.contains p.key = true := by
    unfold Table.contains
    rw [hold]
    rfl
  show s.written (s.updatePolicy p) = _
  unfold updatePolicy
  rw [if_pos hcontained]
  rfl

end Store

namespace World

variable {w w' : World} {tokens : TokenIssuer} {token : String} {claims : Claims} {α β : Type}

/-! ## The ends of an update -/

/-- What an update of a policy comes to: what it is answered and what it leaves behind. -/
inductive Updates (w : World) (claims : Claims) (p : Policy) :
    Except ApiError Policy → World → Prop where
  | malformed {e : PolicyError} (h : p.validate = .error e) :
    Updates w claims p (.error (.ofPolicy e)) w
  | outranked {w' : World} (hvalid : p.validate = .ok ()) (hrank : ¬w.store.Outranks claims p)
    (hsame : w.store.SameTables w'.store) : Updates w claims p (.error .higherPolicyRank) w'
  | unknown {w' : World} (hvalid : p.validate = .ok ()) (hrank : w.store.Outranks claims p)
    (hmissing : w.store.policies.lookup p.key = none) (hsame : w.store.SameTables w'.store) :
    Updates w claims p (.error .notFound) w'
  | foreign {w' : World} {existing : Policy} (hvalid : p.validate = .ok ())
    (hrank : w.store.Outranks claims p) (hstored : w.store.policies.lookup p.key = some existing)
    (hforeign : claims.isAdmin = false ∧ existing.owner ≠ claims.subject)
    (hsame : w.store.SameTables w'.store) : Updates w claims p (.error .authorization) w'
  | amended {w' : World} {existing updated : Policy} (hvalid : p.validate = .ok ())
    (hrank : w.store.Outranks claims p) (hstored : w.store.policies.lookup p.key = some existing)
    (hmine : ¬(claims.isAdmin = false ∧ existing.owner ≠ claims.subject))
    (hupdated : updated = { existing with
      actions := Policy.normalizeActions p.actions
      updatedAt := .ofNanos w.clock
      updatedBy := claims.subject })
    (hpolicies : ∀ key, w'.store.policies.lookup key =
      if key = p.key then some updated else w.store.policies.lookup key)
    (hclients : w'.store.clients = w.store.clients) (hgroups : w'.store.groups = w.store.groups)
    (hcached : w'.caches.policies.entries.lookup p.key =
      some ⟨updated, w.clock + w.caches.policies.ttl⟩) : Updates w claims p (.ok updated) w'

/-- **The rank.**  The caller's own policy on the object is looked at, unless the caller is an
admin, and then a procedure goes on or is refused. -/
theorem ends_rank (h : w.Sound) (claims : Claims) (p : Policy) {rest : Unit → Procedure α}
    {Q : Except ApiError α → World → Prop}
    (hpassed : ∀ n, w.store.Outranks claims p → (w.reread n).Ends (rest ()) Q)
    (hrefused : ∀ n, ¬w.store.Outranks claims p → Q (.error .higherPolicyRank) (w.reread n)) :
    w.Ends (if (!claims.isAdmin) = true then do
        let own : Option Policy ← Procedure.store (.policy ⟨claims.subject, p.object⟩)
        if (!own.any (·.covers (Policy.normalizeActions p.actions))) = true then
          throw ApiError.higherPolicyRank >>= rest
        else rest ()
      else rest ()) Q := by
  refine ends_gate (P := fun w' => ∃ n, w' = w.reread n) (w.store.Outranks claims p) Or.inl
    ⟨w.store.reads, rfl⟩ (fun hadmin => ?_) ?_ ?_
  · refine ⟨_, _, run_read h.reliable (c := .policy ⟨claims.subject, p.object⟩) rfl rfl,
      ⟨_, rfl⟩, ?_⟩
    rw [Store.covers_iff, Store.Outranks, hadmin]
    exact (or_iff_right Bool.false_ne_true).symm
  · rintro w' ⟨n, rfl⟩ hrank
    exact hpassed n hrank
  · rintro w' ⟨n, rfl⟩ hrank
    exact hrefused n hrank

/-- **An update comes to one of its ends.** -/
theorem updates_updatePolicy (h : w.Sound) (hbearer : w.Admits tokens token claims) (p : Policy) :
    w.Ends (Engine.updatePolicy tokens token p) (w.Updates claims p) := by
  refine ends_bind_of_ok (run_caller hbearer.1 hbearer.2) ?_
  cases hvalid : p.validate with
  | error e => exact .malformed hvalid
  | ok =>
      have hok : w.run (Procedure.ofExcept ApiError.ofPolicy (.ok ())) = (.ok (), w) := rfl
      refine ends_bind_of_ok hok (ends_rank h claims p (fun n hrank => ?_) fun n hrank => ?_)
      · cases hstored : w.store.policies.lookup p.key with
        | none =>
            refine ends_read_bind (h.reread n).reliable rfl (congrArg Except.ok hstored) ?_
            exact .unknown hvalid hrank hstored ⟨rfl, rfl, rfl⟩
        | some existing =>
            refine ends_read_bind (h.reread n).reliable rfl (congrArg Except.ok hstored) ?_
            refine ends_refuse (fun hforeign => ?_) fun hmine => ?_
            · exact .foreign hvalid hrank hstored (by simpa using hforeign) ⟨rfl, rfl, rfl⟩
            · refine ends_now_bind ?_
              -- what is written is under the key of what was found, which is the one asked for
              have hkey : existing.key = p.key := h.store.policy_key hstored
              have hold : w.store.policies.lookup existing.key = some existing := hkey ▸ hstored
              refine ends_write_bind ((h.reread n).reread _) (Store.answer_updatePolicy hold) ?_
              intro hwritten
              refine ends_bind_of_ok (run_cachePolicy hwritten _) (ends_note_bind (ends_pure ?_))
              refine .amended hvalid hrank hstored (by simpa using hmine) rfl ?_ rfl rfl ?_
              · intro key
                show (w.store.policies.modify existing.key (Store.amend · _)).lookup key = _
                rw [Table.lookup_modify, hkey]
                split
                · next hkey' =>
                  rw [hkey', hstored]
                  rfl
                · rfl
              · rw [← hkey]
                exact lookup_remember _ _
      · exact .outranked hvalid hrank ⟨rfl, rfl, rfl⟩

/-! ## What the ends are told by -/

/-- An update ends with a word on the form of the policy exactly if something is wrong with it. -/
theorem Updates.malformed_iff {p : Policy} {r : Except ApiError Policy}
    (h : w.Updates claims p r w') (reason : String) : r = .error (.malformed reason) ↔
      ∃ e, p.validate = .error e ∧ reason = e.message := by
  have hwellFormed (hvalid : p.validate = .ok ()) :
      ¬∃ e, p.validate = .error e ∧ reason = e.message := by
    rintro ⟨e, he, -⟩
    cases hvalid.symm.trans he
  cases h with
  | malformed h =>
      rw [Policy.ofPolicy_of_validate h, h]
      constructor
      · intro hreason
        cases hreason
        exact ⟨_, rfl, rfl⟩
      · rintro ⟨e, he, rfl⟩
        cases he
        rfl
  | outranked hvalid | unknown hvalid | foreign hvalid | amended hvalid =>
      exact iff_of_false nofun (hwellFormed hvalid)

/-- An update that is refused changes nothing that is stored. -/
theorem Updates.sameTables {p : Policy} {e : ApiError} (h : w.Updates claims p (.error e) w') :
    w.store.SameTables w'.store := by
  cases h with
  | malformed => exact ⟨rfl, rfl, rfl⟩
  | outranked _ _ hsame | unknown _ _ _ hsame | foreign _ _ _ _ hsame => exact hsame

/-- An update in good form is refused for the rank of the caller exactly if they do not outrank the
policy. -/
theorem Updates.higherPolicyRank_iff {p : Policy} {r : Except ApiError Policy}
    (h : w.Updates claims p r w') (hvalid : p.validate = .ok ()) :
    r = .error .higherPolicyRank ↔ ¬w.store.Outranks claims p := by
  cases h with
  | malformed h => cases hvalid.symm.trans h
  | outranked _ hrank => exact iff_of_true rfl hrank
  | unknown _ hrank | foreign _ hrank | amended _ hrank =>
      exact iff_of_false nofun (not_not.2 hrank)

/-- **What an update comes to.**  After every history, for everyone with an access token and every
policy: what is wrong with the form of the policy is said first; then that the caller is no admin
and has no policy on the object that carries every action asked for; then that there is no policy to
be updated; then that the caller is neither an admin nor its owner.  None of these changes what is
stored.  Otherwise the policy has the actions asked for, in order and each once, and says who
updated it and when; nothing else in it changes, and nothing else in the store.  This one policy is
what is answered, what is stored and what is cached. -/
theorem update_outcome (tokens : TokenIssuer) {w₀ : World} (hopened : w₀.Opened)
    (visits : List Visit) (wait : Nat) {token : String} {claims : Claims} (p : Policy) :
    let w := (w₀.after tokens visits).elapse wait
    w.Admits tokens token claims →
    let s := w.store
    let answer := (w.run (Engine.updatePolicy tokens token p)).1
    let w' := (w.run (Engine.updatePolicy tokens token p)).2
    (∀ reason, answer = .error (.malformed reason) ↔
      ∃ e, p.validate = .error e ∧ reason = e.message) ∧
    (∀ e, answer = .error e → s.SameTables w'.store) ∧
    (p.validate = .ok () →
      (answer = .error .higherPolicyRank ↔
        claims.isAdmin = false ∧ ¬∃ own, s.policies.lookup ⟨claims.subject, p.object⟩ = some own ∧
          ∀ a ∈ p.actions, a ∈ own.actions) ∧
      (answer ≠ .error .higherPolicyRank →
        (answer = .error .notFound ↔ s.policies.lookup p.key = none) ∧
        ∀ existing, s.policies.lookup p.key = some existing →
          (answer = .error .authorization ↔
            claims.isAdmin = false ∧ existing.owner ≠ claims.subject) ∧
          (answer ≠ .error .authorization → ∃ updated, answer = .ok updated ∧
            updated = { existing with
              actions := updated.actions
              updatedAt := .ofNanos w.clock
              updatedBy := claims.subject } ∧
            updated.actions.Pairwise (· < ·) ∧ (∀ a, a ∈ updated.actions ↔ a ∈ p.actions) ∧
            (∀ key, w'.store.policies.lookup key =
              if key = p.key then some updated else s.policies.lookup key) ∧
            w'.store.clients = s.clients ∧ w'.store.groups = s.groups ∧
            w'.caches.policies.entries.lookup p.key =
              some ⟨updated, w.clock + w.caches.policies.ttl⟩))) := by
  intro w hbearer s answer w'
  have hcoherent : w.Coherent := (hopened.coherent.after tokens visits).elapse wait
  have hupdates : w.Updates claims p answer w' :=
    updates_updatePolicy hcoherent.toSound hbearer p
  -- the ends are told by cases, so the run itself is not needed any more
  generalize answer = r at hupdates ⊢
  generalize w' = t at hupdates ⊢
  refine ⟨hupdates.malformed_iff, ?_, fun hvalid => ⟨?_, fun hhigh => ?_⟩⟩
  · rintro e rfl
    exact hupdates.sameTables
  · rw [hupdates.higherPolicyRank_iff hvalid, Store.not_outranks_iff]
  cases hupdates with
  | malformed h => cases hvalid.symm.trans h
  | outranked => exact absurd rfl hhigh
  | unknown _ _ hmissing =>
      refine ⟨iff_of_true rfl hmissing, fun existing hexisting => ?_⟩
      cases hmissing.symm.trans hexisting
  | foreign _ _ hstored hforeign =>
      refine ⟨iff_of_false nofun (fun hmissing => nomatch hmissing.symm.trans hstored), ?_⟩
      intro existing hexisting
      cases hstored.symm.trans hexisting
      exact ⟨iff_of_true rfl hforeign, fun hno => absurd rfl hno⟩
  | amended _ _ hstored hmine hupdated hpolicies hclients hgroups hcached =>
      refine ⟨iff_of_false nofun (fun hmissing => nomatch hmissing.symm.trans hstored), ?_⟩
      intro existing hexisting
      cases hstored.symm.trans hexisting
      refine ⟨iff_of_false nofun hmine, fun _ => ⟨_, rfl, ?_⟩⟩
      subst hupdated
      exact ⟨rfl, Policy.increasing_normalizeActions _, fun a => Policy.mem_normalizeActions,
        hpolicies, hclients, hgroups, hcached⟩

/-- Ann lets Bob read her meter. -/
def annsMeter : List Visit :=
  [⟨0, .registerClient "ann" ⟨"meter", "", "", "key", .enabled, ⟨0, 0⟩, ⟨0, 0⟩⟩⟩,
   ⟨3, .addPolicy "ann" ⟨"", "bob", "meter", ["m_read"], ⟨0, 0⟩, ⟨0, 0⟩, ""⟩⟩]

/-- Ann may let Bob write to it as well, and says so twice; Bob may not. -/
theorem update_outcome_meter :
    let w := ((empty 60000000000 0).after .named annsMeter).elapse 5
    let p : Policy :=
      ⟨"", "bob", "meter", ["m_write", "m_read", "m_write"], ⟨0, 0⟩, ⟨0, 0⟩, ""⟩
    (empty 60000000000 0).Opened ∧ p.validate = .ok () ∧
      (w.run (Engine.updatePolicy .named "bob" p)).1 = .error .higherPolicyRank ∧
      ∃ updated, (w.run (Engine.updatePolicy .named "ann" p)).1 = .ok updated ∧
        updated.owner = "ann" ∧ updated.createdAt = .ofNanos 3 ∧ updated.updatedAt = .ofNanos 8 ∧
        updated.actions.Pairwise (· < ·) ∧
        (w.run (Engine.updatePolicy .named "ann" p)).2.caches.policies.entries.lookup p.key =
          some ⟨updated, 60000000008⟩ := by
  intro w p
  have hopened : (empty 60000000000 0).Opened := opened_empty _ _
  have hvalid : p.validate = .ok () := rfl
  have hexisting : w.store.policies.lookup p.key =
      some ⟨"ann", "bob", "meter", ["m_read"], .ofNanos 3, .ofNanos 3, "ann"⟩ := by
    decide +kernel
  have howner : w.store.policies.lookup ⟨"ann", "meter"⟩ =
      some ⟨"ann", "ann", "meter", clientActions, .ofNanos 0, .ofNanos 0, "ann"⟩ := by
    decide +kernel
  have hbob : w.Admits .named "bob" ⟨"bob", .user, "", .access, 0, 0⟩ := ⟨rfl, rfl⟩
  have hann : w.Admits .named "ann" ⟨"ann", .user, "", .access, 0, 0⟩ := ⟨rfl, rfl⟩
  obtain ⟨-, -, hrefused⟩ := update_outcome .named hopened annsMeter 5 p hbob
  obtain ⟨-, -, hallowed⟩ := update_outcome .named hopened annsMeter 5 p hann
  refine ⟨hopened, hvalid, (hrefused hvalid).1.2 ⟨rfl, ?_⟩, ?_⟩
  · rintro ⟨own, hown, hall⟩
    cases hexisting.symm.trans hown
    exact absurd (hall "m_write" (by decide)) (by decide)
  -- Ann's own policy on the meter is that of its owner, so she outranks what she asks for
  · obtain ⟨hlow, hrest⟩ := hallowed hvalid
    obtain ⟨-, hfound⟩ := hrest fun hno => (hlow.1 hno).2 ⟨_, howner, by decide⟩
    obtain ⟨hforeign, hcarriedOut⟩ := hfound _ hexisting
    obtain ⟨updated, hanswer, hupdated, hsorted, -, -, -, -, hcached⟩ :=
      hcarriedOut fun hno => (hforeign.1 hno).2 rfl
    refine ⟨updated, hanswer, ?_, ?_, ?_, hsorted, hcached⟩
    · rw [hupdated]
    · rw [hupdated]
    · rw [hupdated]
      rfl

end World

end Gatehouse
