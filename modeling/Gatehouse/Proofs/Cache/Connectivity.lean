import Gatehouse.Proofs.Cache.Coherence

/-!
# Gatehouse.Proofs.Cache.Connectivity — the key cache and the marks decide nothing

Two caches answer for devices: one knows clients by their secrets and one knows which client is
connected to which channel.  In a coherent world each answers as the store would.  That a secret
belongs to one client is what makes a client that is known by its secret the one that the store
finds.

What the store would answer is said first, twice.  `Store.identify` and `Store.connects` are
functions, which the operations are compared with; `Store.Names` and `Store.Connected` are the same
as statements about what is stored, and in these the results are stated.  The two agree on stores
that are sound (`identify_eq_ok`, `connects_iff`), and this is where it is used that no two clients
share a secret.

An operation either finds an entry, live, or it does not.  If it does not, it asks the store, and
its answer is that of the store without more ado (`run_identifyThing_of_miss`,
`run_canAccessById_of_miss`).  If it does, coherence is what makes the two answers one.  Access by a
secret is the one operation after the other, in the world that the first leaves, which is coherent
again.
-/

namespace Gatehouse

namespace Store

/-- Whether a client is stored under an id, with a secret, and enabled. -/
def Names (s : Store) (secret id : String) : Prop :=
  ∃ c, s.clients.lookup id = some c ∧ c.id = id ∧ c.secret = secret ∧ c.status = .enabled

/-- Whether a policy of a client on a channel is stored, and the client, enabled. -/
def Connected (s : Store) (channel client : String) : Prop :=
  (∃ p, s.policies.lookup ⟨client, channel⟩ = some p) ∧
    ∃ c, s.clients.lookup client = some c ∧ c.id = client ∧ c.status = .enabled

/-- What a store makes of a secret. -/
def identify (s : Store) (secret : String) : Except ApiError String :=
  match s.clientBySecret secret with
  | none => .error .notFound
  | some c => if c.status = .enabled then .ok c.id else .error .authorization

/-- Whether an enabled client has a policy on a channel. -/
def connects (s : Store) (channel client : String) : Bool :=
  s.policies.contains ⟨client, channel⟩ &&
    (s.clients.lookup client).any (·.status = .enabled)

/-- In a sound store the client with a secret is the one that is found by it. -/
theorem clientBySecret_of_lookup {s : Store} (h : s.Sound) {id : String} {c : Client}
    (hc : s.clients.lookup id = some c) : s.clientBySecret c.secret = some c := by
  cases hfound : s.clientBySecret c.secret with
  -- the store looks through all clients, so it finds one, and it has the same id
  | none => exact absurd rfl (clientBySecret_eq_none hfound hc)
  | some c' =>
      obtain ⟨⟨id', hc'⟩, hsecret⟩ := clientBySecret_eq_some hfound
      obtain rfl : id' = id := h.secret_unique hc' hc hsecret
      exact hc'.symm.trans hc

theorem identify_of_none {s : Store} {secret : String} (h : s.clientBySecret secret = none) :
    s.identify secret = .error .notFound := by
  unfold identify
  rw [h]

theorem identify_of_enabled {s : Store} {secret : String} {c : Client}
    (h : s.clientBySecret secret = some c) (henabled : c.status = .enabled) :
    s.identify secret = .ok c.id := by
  unfold identify
  rw [h]
  exact if_pos henabled

theorem identify_of_disabled {s : Store} {secret : String} {c : Client}
    (h : s.clientBySecret secret = some c) (hdisabled : c.status ≠ .enabled) :
    s.identify secret = .error .authorization := by
  unfold identify
  rw [h]
  exact if_neg hdisabled

/-- A secret is identified as an id exactly if the store has an enabled client under the id and with
the secret.  Its uniqueness is needed from right to left: the client that is found is that client.
-/
theorem identify_eq_ok {s : Store} (h : s.Sound) {secret id : String} :
    s.identify secret = .ok id ↔ s.Names secret id := by
  constructor
  · intro hid
    cases hfound : s.clientBySecret secret with
    | none => cases (identify_of_none hfound).symm.trans hid
    | some c =>
        by_cases henabled : c.status = .enabled
        · obtain ⟨⟨id', hc⟩, hsecret⟩ := clientBySecret_eq_some hfound
          obtain rfl : c.id = id' := h.client_id hc
          obtain rfl : c.id = id :=
            Except.ok.inj ((identify_of_enabled hfound henabled).symm.trans hid)
          exact ⟨c, hc, rfl, hsecret, henabled⟩
        · cases (identify_of_disabled hfound henabled).symm.trans hid
  · rintro ⟨c, hc, rfl, rfl, henabled⟩
    exact identify_of_enabled (clientBySecret_of_lookup h hc) henabled

theorem identify_eq_notFound {s : Store} {secret : String} :
    s.identify secret = .error .notFound ↔
      ∀ id c, s.clients.lookup id = some c → c.secret ≠ secret := by
  cases hfound : s.clientBySecret secret with
  | none =>
      refine ⟨fun _ id c hc => clientBySecret_eq_none hfound hc, fun _ => ?_⟩
      exact identify_of_none hfound
  | some c =>
      obtain ⟨⟨id, hc⟩, hsecret⟩ := clientBySecret_eq_some hfound
      refine ⟨fun hno => ?_, fun hno => absurd hsecret (hno id c hc)⟩
      by_cases henabled : c.status = .enabled
      · cases (identify_of_enabled hfound henabled).symm.trans hno
      · cases (identify_of_disabled hfound henabled).symm.trans hno

theorem identify_eq_authorization {s : Store} (h : s.Sound) {secret : String} :
    s.identify secret = .error .authorization ↔
      ∃ id c, s.clients.lookup id = some c ∧ c.secret = secret ∧ c.status ≠ .enabled := by
  constructor
  · intro hid
    cases hfound : s.clientBySecret secret with
    | none => cases (identify_of_none hfound).symm.trans hid
    | some c =>
        obtain ⟨⟨id, hc⟩, hsecret⟩ := clientBySecret_eq_some hfound
        refine ⟨id, c, hc, hsecret, ?_⟩
        intro henabled
        cases (identify_of_enabled hfound henabled).symm.trans hid
  · rintro ⟨id, c, hc, rfl, hdisabled⟩
    exact identify_of_disabled (clientBySecret_of_lookup h hc) hdisabled

theorem connects_iff {s : Store} (h : s.Sound) {channel client : String} :
    s.connects channel client = true ↔ s.Connected channel client := by
  unfold connects Table.contains
  rw [Bool.and_eq_true, Option.isSome_iff_exists, Option.any_eq_true]
  refine and_congr_right fun _ => exists_congr fun c => ?_
  rw [decide_eq_true_iff]
  exact ⟨fun ⟨hc, henabled⟩ => ⟨hc, h.client_id hc, henabled⟩,
    fun ⟨hc, _, henabled⟩ => ⟨hc, henabled⟩⟩

theorem connects_of_confirms {s : Store} {channel client : String}
    (h : s.Confirms (.connection ⟨channel, client⟩)) : s.connects channel client = true := by
  obtain ⟨hpolicy, c, hc, henabled⟩ := h
  unfold connects
  rw [hpolicy, hc, Bool.true_and, Option.any_some, decide_eq_true henabled]

end Store

namespace World

variable {w : World}

/-- What is done for the effect on a cache only is done without regard to the remark that it may
leave. -/
theorem exists_run_tryCache (h : w.Sound) (c : CacheCall) : ∃ w', w'.store = w.store ∧
    ∀ message fields, w.run (Engine.tryCache c message fields) = (.ok (), w') := by
  obtain ⟨w', hrun, -, hstore⟩ := exists_run_cache h (c := c) rfl
  refine ⟨w', hstore, ?_⟩
  intro message fields
  exact (run_bind_of_ok hrun).trans rfl

/-! ## Clients by their secrets -/

theorem run_identifyThing_of_hit (h : w.Sound) {key id : String} (hkey : key ≠ "")
    (hhit : w.caches.clients.peek w.clock key = some id) :
    ∃ w', w.run (Engine.identifyThing key) = (.ok id, w') ∧ w.store.SameTables w'.store := by
  obtain ⟨w', hrun, -, hstore⟩ := exists_run_cache h (c := .clientOf key)
    ((TtlMap.get_fst _ _ _).trans hhit)
  refine ⟨w', ?_, Store.sameTables_of_eq hstore⟩
  unfold Engine.identifyThing
  rw [if_neg hkey]
  exact (run_bind_of_ok hrun).trans rfl

theorem run_identifyThing_of_miss (h : w.Sound) {key : String} (hkey : key ≠ "")
    (hmiss : w.caches.clients.peek w.clock key = none) :
    ∃ w', w.run (Engine.identifyThing key) = (w.store.identify key, w') ∧
      w.store.SameTables w'.store := by
  obtain ⟨w₁, hcache, hsound₁, hstore₁⟩ := exists_run_cache h (c := .clientOf key)
    ((TtlMap.get_fst _ _ _).trans hmiss)
  obtain ⟨w₂, hread, hsound₂, htables⟩ := exists_run_read hsound₁ (c := .clientBySecret key) rfl rfl
  rw [hstore₁] at hread htables
  unfold Engine.identifyThing
  rw [if_neg hkey]
  cases hfound : w.store.clientBySecret key with
  | none =>
      rw [hfound] at hread
      rw [Store.identify_of_none hfound]
      exact ⟨w₂, (run_bind_of_ok hcache).trans ((run_bind_of_ok hread).trans rfl), htables⟩
  | some c =>
      rw [hfound] at hread
      -- only a client that is enabled is put into the cache
      by_cases henabled : c.status = .enabled
      · obtain ⟨w₃, hstore₃, hput⟩ := exists_run_tryCache hsound₂ (.putClient key c.id)
        refine ⟨w₃, (run_bind_of_ok hcache).trans ((run_bind_of_ok hread).trans ?_),
          htables.trans (Store.sameTables_of_eq hstore₃)⟩
        rw [Store.identify_of_enabled hfound henabled]
        show w₂.run (if c.status ≠ .enabled then _ else Engine.tryCache _ _ _ >>= _) = _
        rw [if_neg (not_not_intro henabled)]
        exact (run_bind_of_ok (hput _ _)).trans rfl
      · refine ⟨w₂, (run_bind_of_ok hcache).trans ((run_bind_of_ok hread).trans ?_), htables⟩
        rw [Store.identify_of_disabled hfound henabled]
        show w₂.run (if c.status ≠ .enabled then _ else _) = _
        rw [if_pos henabled]
        rfl

/-- A coherent world makes of a secret what its store makes of it. -/
theorem Coherent.run_identifyThing (h : w.Coherent) {key : String} (hkey : key ≠ "") :
    ∃ w', w.run (Engine.identifyThing key) = (w.store.identify key, w') ∧
      w.store.SameTables w'.store := by
  cases hpeek : w.caches.clients.peek w.clock key with
  | none => exact run_identifyThing_of_miss h.toSound hkey hpeek
  | some id =>
      -- the client that is remembered is the only one with the secret
      obtain ⟨c, hc, rfl, henabled⟩ :=
        h.confirms (.client key id) (Caches.holds_of_recalls w.clock hpeek)
      obtain rfl : c.id = id := h.store.client_id hc
      rw [Store.identify_of_enabled (Store.clientBySecret_of_lookup h.store hc) henabled]
      exact run_identifyThing_of_hit h.toSound hkey hpeek

/-! ## Clients and channels -/

theorem run_canAccessById_of_hit (h : w.Sound) {channel client : String}
    (hhit : w.caches.connections.peek w.clock ⟨channel, client⟩ = some ()) :
    (w.run (Engine.canAccessById channel client)).1 = .ok () := by
  have hreply : (w.caches.answer w.clock (.isConnected ⟨channel, client⟩)).1 = true := by
    show (w.caches.connections.get w.clock ⟨channel, client⟩).1.isSome = true
    rw [TtlMap.get_fst, hhit]
    rfl
  obtain ⟨w', hrun, -, -⟩ := exists_run_cache h hreply
  exact congrArg Prod.fst ((run_bind_of_ok hrun).trans rfl)

theorem run_canAccessById_of_miss (h : w.Sound) {channel client : String}
    (hmiss : w.caches.connections.peek w.clock ⟨channel, client⟩ = none) :
    (w.run (Engine.canAccessById channel client)).1 =
      if w.store.connects channel client then .ok () else .error .authorization := by
  have hreply : (w.caches.answer w.clock (.isConnected ⟨channel, client⟩)).1 = false := by
    show (w.caches.connections.get w.clock ⟨channel, client⟩).1.isSome = false
    rw [TtlMap.get_fst, hmiss]
    rfl
  obtain ⟨w₁, hcache, hsound₁, hstore₁⟩ := exists_run_cache h hreply
  obtain ⟨w₂, hpolicy, hsound₂, htables⟩ :=
    exists_run_read hsound₁ (c := .policy ⟨client, channel⟩) rfl rfl
  obtain ⟨w₃, hclient, hsound₃, -⟩ := exists_run_read hsound₂ (c := .client client) rfl rfl
  obtain ⟨w₄, -, hput⟩ := exists_run_tryCache hsound₃ (.connect ⟨channel, client⟩)
  rw [hstore₁] at hpolicy htables
  rw [htables.2.1] at hclient
  refine (congrArg Prod.fst ((run_bind_of_ok hcache).trans (run_bind_of_ok hpolicy))).trans ?_
  unfold Store.connects Table.contains
  cases w.store.policies.lookup ⟨client, channel⟩ with
  | none => rfl
  | some p =>
      refine (congrArg Prod.fst (run_bind_of_ok hclient)).trans ?_
      show (w₃.run (if (!(w.store.clients.lookup client).any (·.status = .enabled)) = true then _
        else Engine.tryCache _ _ _)).1 = _
      cases (w.store.clients.lookup client).any (·.status = .enabled) with
      | false => rfl
      | true =>
          rw [if_neg (by decide), hput]
          rfl

/-- A coherent world lets exactly those clients through that its store connects. -/
theorem Coherent.run_canAccessById (h : w.Coherent) (channel client : String) :
    (w.run (Engine.canAccessById channel client)).1 =
      if w.store.connects channel client then .ok () else .error .authorization := by
  cases hpeek : w.caches.connections.peek w.clock ⟨channel, client⟩ with
  | none => exact run_canAccessById_of_miss h.toSound hpeek
  | some mark =>
      rw [run_canAccessById_of_hit h.toSound hpeek, if_pos]
      exact Store.connects_of_confirms
        (h.confirms (.connection ⟨channel, client⟩) (Caches.holds_of_recalls w.clock hpeek))

/-- A device that presents a secret is let through exactly if its client is. -/
theorem Coherent.run_canAccessByKey (h : w.Coherent) (channel : String) {key : String}
    (hkey : key ≠ "") : (w.run (Engine.canAccessByKey channel key)).1 =
      (w.store.identify key).bind fun id =>
        if w.store.connects channel id then .ok id else .error .authorization := by
  obtain ⟨w', hrun, htables⟩ := h.run_identifyThing hkey
  -- the second half runs in the world that the first half leaves
  have hcoherent : w'.Coherent := by
    have hafter := h.run (Engine.settles_identifyThing key) (Engine.timely_identifyThing key)
    rw [hrun] at hafter
    exact hafter
  show (w.run (Engine.identifyThing key >>= _)).1 = _
  cases hid : w.store.identify key with
  | error e =>
      rw [hid] at hrun
      exact congrArg Prod.fst (run_bind_of_error hrun)
  | ok id =>
      rw [hid] at hrun
      have haccess := hcoherent.run_canAccessById channel id
      have hconnects : w'.store.connects channel id = w.store.connects channel id := by
        unfold Store.connects
        rw [htables.1, htables.2.1]
      rw [hconnects] at haccess
      rw [run_bind_of_ok hrun, run_bind_eq, haccess]
      show _ = (if w.store.connects channel id then _ else _)
      cases w.store.connects channel id with
      | true => rfl
      | false => rfl

/-- Access by a secret in terms of what is stored; an empty secret is refused before anything is
asked. -/
theorem Coherent.run_canAccessByKey_eq_ok (h : w.Coherent) (channel key id : String) :
    (w.run (Engine.canAccessByKey channel key)).1 = .ok id ↔
      key ≠ "" ∧ w.store.Names key id ∧ w.store.Connected channel id := by
  by_cases hkey : key = ""
  · refine ⟨fun hid => ?_, fun hboth => absurd hkey hboth.1⟩
    subst hkey
    cases hid
  · rw [h.run_canAccessByKey channel hkey, ← Store.identify_eq_ok h.store,
      ← Store.connects_iff h.store]
    cases w.store.identify key with
    | error e => simp [Except.bind]
    | ok id' =>
        show (if w.store.connects channel id' then _ else _) = _ ↔ _
        cases hconnects : w.store.connects channel id' with
        | true => grind
        | false => grind

/-- **The key cache and the marks decide nothing.**  After every history, a secret that is not empty
names a client exactly if the store holds it now, enabled and with this secret; it is unknown
exactly if no client has it and refused exactly if its client is not enabled.  A client is let
through to a channel exactly if it has a policy on it and is enabled, and refused otherwise.  By its
secret it is let through exactly if both are so. -/
theorem connectivity_iff_stored (tokens : TokenIssuer) {w₀ : World} (hopened : w₀.Opened)
    (visits : List Visit) (wait : Nat) :
    let w := (w₀.after tokens visits).elapse wait
    (∀ key, key ≠ "" →
      (∀ id, (w.run (Engine.identifyThing key)).1 = .ok id ↔ w.store.Names key id) ∧
      ((w.run (Engine.identifyThing key)).1 = .error .notFound ↔
        ∀ id c, w.store.clients.lookup id = some c → c.secret ≠ key) ∧
      ((w.run (Engine.identifyThing key)).1 = .error .authorization ↔
        ∃ id c, w.store.clients.lookup id = some c ∧ c.secret = key ∧ c.status ≠ .enabled)) ∧
    (∀ channel client,
      ((w.run (Engine.canAccessById channel client)).1 = .ok () ↔
        w.store.Connected channel client) ∧
      ((w.run (Engine.canAccessById channel client)).1 = .error .authorization ↔
        ¬ w.store.Connected channel client)) ∧
    ∀ channel key id, (w.run (Engine.canAccessByKey channel key)).1 = .ok id ↔
      key ≠ "" ∧ w.store.Names key id ∧ w.store.Connected channel id := by
  intro w
  have hcoherent : w.Coherent := (hopened.coherent.after tokens visits).elapse wait
  refine ⟨?_, ?_, hcoherent.run_canAccessByKey_eq_ok⟩
  · intro key hkey
    obtain ⟨w', hrun, -⟩ := hcoherent.run_identifyThing hkey
    rw [hrun]
    exact ⟨fun id => Store.identify_eq_ok hcoherent.store, Store.identify_eq_notFound,
      Store.identify_eq_authorization hcoherent.store⟩
  · intro channel client
    rw [hcoherent.run_canAccessById, ← Store.connects_iff hcoherent.store]
    cases w.store.connects channel client with
    | true => simp
    | false => simp

/-- A client that was registered, connected, let through and disabled. -/
def disabledClient : List Visit :=
  [⟨0, .registerClient "owner" ⟨"meter", "", "", "secret", .enabled, ⟨0, 0⟩, ⟨0, 0⟩⟩⟩,
   ⟨0, .addPolicy "owner" ⟨"", "meter", "hall", ["m_write"], ⟨0, 0⟩, ⟨0, 0⟩, ""⟩⟩,
   ⟨0, .canAccessByKey "hall" "secret"⟩,
   ⟨0, .disableClient "owner" "meter"⟩]

/-- A client that was disabled is refused, by its secret and by its id. -/
theorem connectivity_disabled :
    let w := ((empty 60000000000 0).after .named disabledClient).elapse 5
    (empty 60000000000 0).Opened ∧
      (w.run (Engine.identifyThing "secret")).1 = .error .authorization ∧
      (w.run (Engine.canAccessById "hall" "meter")).1 = .error .authorization := by
  intro w
  have hopened : (empty 60000000000 0).Opened := opened_empty _ _
  have hstored : w.store.clients.lookup "meter" =
      some ⟨"meter", "", "owner", "secret", .disabled, ⟨0, 0⟩, ⟨0, 0⟩⟩ := by
    decide +kernel
  obtain ⟨hsecret, hid, -⟩ := connectivity_iff_stored .named hopened disabledClient 5
  refine ⟨hopened, (hsecret "secret" (by decide)).2.2.2 ?_, (hid "hall" "meter").2.2 ?_⟩
  · exact ⟨"meter", _, hstored, rfl, by decide⟩
  · rintro ⟨-, c, hc, -, henabled⟩
    obtain rfl := Option.some.inj (hstored.symm.trans hc)
    cases henabled

end World

end Gatehouse
