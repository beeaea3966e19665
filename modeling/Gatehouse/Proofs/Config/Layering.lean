import Gatehouse.Proofs.Config.Setting
import Gatehouse.Proofs.Token.RoundTrip

/-!
# Gatehouse.Proofs.Config.Layering — which value each setting ends up with

The value of a setting is the one that its variable spells; else the one in its place in the
document; else its default (`Setting.Provided`).  A document is `Shaped` if every setting can be
read from it.  `load_layered` says when a configuration is loaded and what it is: setting by
setting, and checked as a whole only then.

The order of the two steps matters.  A document is read completely before any variable is looked at,
so a document of the wrong shape is refused even if a variable would have hidden the entry; and what
is loaded is checked after the variables, so a document that could not be used by itself is accepted
if the variables mend it, and one that could be used is refused if they spoil it.

That every setting is what it is to be determines the configuration, since a configuration is no
more than the values of its settings.  So the theorem speaks of the configuration that has this
property, and it need not be computed in the statement.

What the checks are for is shown of one pair of settings.  Refresh tokens have to last longer than
access tokens; then each pair that is issued is staggered (`TokenSigner.Staggers`), and there is a
time at which only the refresh token is still read.
-/

namespace Gatehouse

open Gatehouse.Time

/-- What a setting is to be: the value that its variable spells, else the value that the document
has in its place, else its default. -/
inductive Setting.Provided (env : Environment) (es : Toml.Entries) (s : Setting) :
    s.kind.Value → Prop where
  | environment {v : s.kind.Value} (h : s.InEnvironment env v) : Provided env es s v
  | document {v : s.kind.Value} (hunset : ∀ v, ¬s.InEnvironment env v)
    (h : s.InDocument es (some v)) : Provided env es s v
  | default (hunset : ∀ v, ¬s.InEnvironment env v) (h : s.InDocument es none) :
    Provided env es s (({} : Config).get s)

namespace Config

/-- Whether every setting of a configuration is what it is to be. -/
def Layered (env : Environment) (es : Toml.Entries) (c : Config) : Prop :=
  ∀ s : Setting, s.Provided env es (c.get s)

/-- Whether every setting can be read from a document, or is not in it. -/
def Shaped (es : Toml.Entries) : Prop := ∀ s : Setting, ∃ found, s.InDocument es found

/-- Whether a configuration can be used. -/
structure Usable (c : Config) : Prop where
  port : c.http.port ≠ 0
  connections : c.database.maxConnections ≠ 0
  secret : c.token.secret ≠ ""
  accessTtl : c.token.accessTtl ≠ 0
  refreshTtl : c.token.accessTtl < c.token.refreshTtl
  probeTimeout : c.events.probeTimeout ≠ 0
  drainInterval : c.events.drainInterval ≠ 0

theorem checked_eq_ok_iff {p : Prop} [Decidable p] {v : Violation} {rest : Except Violation Unit} :
    (if p then throw v else rest) = .ok () ↔ ¬p ∧ rest = .ok () := by
  split
  · next hp => exact iff_of_false nofun fun h => h.1 hp
  · next hp => exact ⟨fun h => ⟨hp, h⟩, And.right⟩

/-- The checks pass exactly for what can be used.  Each of them is a condition that throws, and they
are made one after the other. -/
theorem validate_eq_ok_iff {c : Config} : c.validate = .ok () ↔ c.Usable := by
  show (if c.http.port = 0 then throw .port
    else if c.token.secret = "" then throw .secret
    else if c.token.accessTtl = 0 then throw .accessTtl
    else if c.token.refreshTtl ≤ c.token.accessTtl then throw .refreshTtl
    else if c.database.maxConnections = 0 then throw .connections
    else if c.events.probeTimeout = 0 ∨ c.events.drainInterval = 0 then throw .intervals
    else pure () : Except Violation Unit) = .ok () ↔ _
  simp only [checked_eq_ok_iff, not_or, Nat.not_le]
  constructor
  · rintro ⟨hport, hsecret, haccess, hrefresh, hconnections, ⟨hprobe, hdrain⟩, -⟩
    exact ⟨hport, hconnections, hsecret, haccess, hrefresh, hprobe, hdrain⟩
  · rintro ⟨hport, hconnections, hsecret, haccess, hrefresh, hprobe, hdrain⟩
    exact ⟨hport, hsecret, haccess, hrefresh, hconnections, ⟨hprobe, hdrain⟩, rfl⟩

/-! ## Layers -/

variable {es : Toml.Entries} {env : Environment} {c : Config}

theorem shaped_iff_isSome : Shaped es ↔ ∀ s ∈ Setting.all, (s.inDocument? es).isSome := by
  refine ⟨fun h s _ => ?_, fun h s => ?_⟩
  · obtain ⟨found, hfound⟩ := h s
    rw [Setting.inDocument?_eq_some_iff.2 hfound]
    rfl
  · obtain ⟨found, hfound⟩ := Option.isSome_iff_exists.1 (h s s.mem_all)
    exact ⟨found, Setting.inDocument?_eq_some_iff.1 hfound⟩

/-- A document of another shape is none of a configuration. -/
theorem ofDocument?_of_not_shaped (h : ¬Shaped es) : ofDocument? es = none := by
  unfold ofDocument?
  rw [foldlM_putAny, if_neg (mt shaped_iff_isSome.2 h)]

/-- The configuration of a document has what the document says of each setting. -/
theorem ofDocument?_of_shaped (h : Shaped es) : ∃ c, ofDocument? es = some c ∧
    ∀ s found, s.InDocument es found → c.get s = found.getD (({} : Config).get s) := by
  refine ⟨_, (foldlM_putAny _ _ _).trans (if_pos (shaped_iff_isSome.1 h)), ?_⟩
  intro s found hfound
  rw [get_foldl_putAny (fun s => (s.inDocument? es).join), if_pos s.mem_all,
    Setting.inDocument?_eq_some_iff.2 hfound]
  rfl

theorem get_override (env : Environment) (c : Config) (s : Setting) :
    (c.override env).get s = (s.inEnvironment? env).getD (c.get s) := by
  unfold override
  rw [get_foldl_putAny (Setting.inEnvironment? env), if_pos s.mem_all]

/-- **Layers.**  Under an environment, each setting has the value that is provided for it. -/
theorem get_override_eq_iff {s : Setting} {found : Option s.kind.Value}
    (hfound : s.InDocument es found) (hc : c.get s = found.getD (({} : Config).get s))
    (v : s.kind.Value) : (c.override env).get s = v ↔ s.Provided env es v := by
  rw [get_override]
  cases henv : s.inEnvironment? env with
  -- the environment goes before the document, whatever that says
  | some x =>
      have hset := Setting.inEnvironment?_eq_some_iff.1 henv
      constructor
      · rintro rfl
        exact .environment hset
      · intro h
        cases h with
        | environment h =>
            exact Option.some.inj (henv.symm.trans (Setting.inEnvironment?_eq_some_iff.2 h))
        | document hunset | default hunset => exact absurd hset (hunset x)
  -- without the environment the value is that of the document, or the default
  | none =>
      have hunset : ∀ v, ¬s.InEnvironment env v := fun v h =>
        nomatch henv.symm.trans (Setting.inEnvironment?_eq_some_iff.2 h)
      have hread := Setting.inDocument?_eq_some_iff.2 hfound
      rw [Option.getD_none, hc]
      constructor
      · rintro rfl
        cases found with
        | some x => exact .document hunset hfound
        | none => exact .default hunset hfound
      · intro h
        cases h with
        | environment h => exact absurd h (hunset v)
        | document _ h =>
            cases hread.symm.trans (Setting.inDocument?_eq_some_iff.2 h)
            rfl
        | default _ h =>
            cases hread.symm.trans (Setting.inDocument?_eq_some_iff.2 h)
            rfl

/-- Under an environment, the configuration of a document is the only one that is layered. -/
theorem layered_iff_of_shaped (hshape : Shaped es)
    (hget : ∀ s found, s.InDocument es found → c.get s = found.getD (({} : Config).get s))
    (c' : Config) : Layered env es c' ↔ c' = c.override env := by
  have hprovided : ∀ s v, (c.override env).get s = v ↔ s.Provided env es v := by
    intro s
    obtain ⟨found, hfound⟩ := hshape s
    exact get_override_eq_iff hfound (hget s found hfound)
  constructor
  · exact fun h => ext_get fun s => ((hprovided s _).2 (h s)).symm
  · rintro rfl
    exact fun s => (hprovided s _).1 rfl

/-- A variable that belongs to another setting makes no difference. -/
theorem get_override_update (env : Environment) (c : Config) {s t : Setting} (h : t ≠ s)
    (value : Option String) :
    (c.override (Function.update env s.envName value)).get t = (c.override env).get t := by
  have hother : t.envName ≠ s.envName := fun hname => h (Setting.envName_inj hname)
  rw [get_override, get_override, Setting.inEnvironment?, Setting.inEnvironment?,
    Function.update_of_ne hother]

/-! ## Loading -/

theorem ofText_of_not_shaped {text : String}
    (h : ¬∃ es, Toml.parse text = some es ∧ Shaped es) :
    ∃ reason, ofText text = .error (.parseToml reason) := by
  unfold ofText
  cases hparse : Toml.parse text with
  | none => exact ⟨_, rfl⟩
  | some es =>
      dsimp only
      rw [ofDocument?_of_not_shaped fun hes => h ⟨es, hparse, hes⟩]
      exact ⟨_, rfl⟩

theorem ofText_of_ofDocument? {text : String} (hparse : Toml.parse text = some es)
    (hdocument : ofDocument? es = some c) : ofText text = .ok c := by
  unfold ofText
  rw [hparse]
  dsimp only
  rw [hdocument]
  rfl

theorem load_of_ofText_error {text : String} {e : ConfigError} (h : ofText text = .error e)
    (env : Environment) : load (.text text) env = .error e := by
  show (ofText text >>= _) = _
  rw [h]
  rfl

/-- What is loaded is checked after the variables. -/
theorem load_of_ofText {text : String} (h : ofText text = .ok c) (env : Environment) :
    load (.text text) env =
      match (c.override env).validate with
      | .ok () => .ok (c.override env)
      | .error v => .error (.validation v) := by
  show (ofText text >>= _) = _
  rw [h]
  rfl

/-- A configuration is loaded if it can be used, and refused after all otherwise. -/
theorem load_cases {text : String} (h : ofText text = .ok c) (env : Environment) :
    ((c.override env).Usable ∧ load (.text text) env = .ok (c.override env)) ∨
      ¬(c.override env).Usable ∧ ∃ v, load (.text text) env = .error (.validation v) := by
  rw [load_of_ofText h]
  cases hvalid : (c.override env).validate with
  | ok => exact Or.inl ⟨validate_eq_ok_iff.1 hvalid, rfl⟩
  | error v =>
      refine Or.inr ⟨fun husable => ?_, v, rfl⟩
      cases hvalid.symm.trans (validate_eq_ok_iff.2 husable)

/-- No file is as good as an empty one. -/
theorem load_none (env : Environment) : load .none env = load (.text "") env :=
  (load_of_ofText (ofText_of_ofDocument? rfl rfl) env).symm

/-- What is loaded is the configuration of the file under the variables, and can be used. -/
theorem of_load_eq_ok {text : String} (h : load (.text text) env = .ok c) :
    ∃ file, ofText text = .ok file ∧ c = file.override env ∧ c.Usable := by
  cases hfile : ofText text with
  | error e => cases h.symm.trans (load_of_ofText_error hfile env)
  | ok file =>
      refine ⟨file, rfl, ?_⟩
      rcases load_cases hfile env with ⟨husable, hload⟩ | ⟨-, v, hload⟩
      · cases h.symm.trans hload
        exact ⟨rfl, husable⟩
      · cases h.symm.trans hload

end Config

/-- Whether each token of a pair is read until it expires, and the refresh token expires later. -/
def TokenSigner.Staggers (s : TokenSigner) (p : TokenPair) : Prop :=
  ∃ access refresh : Claims, access.expiresAt < refresh.expiresAt ∧ ∀ t,
    s.parse t p.access = (if access.expiresAt < t then .error .expired else .ok access) ∧
    s.parse t p.refresh = if refresh.expiresAt < t then .error .expired else .ok refresh

/-- If refresh tokens last longer than access tokens, every pair that is issued is staggered. -/
theorem TokenSigner.staggers_of_issue {s : TokenSigner} (h : s.accessTtl < s.refreshTtl)
    {clock : Nat} {r : IssueRequest} {p : TokenPair}
    (hissue : s.issue (Timestamp.ofNanos clock).seconds r = .ok p) : s.Staggers p := by
  have hnow : 0 ≤ (Timestamp.ofNanos clock).seconds := Int.natCast_nonneg _
  have hparse := (s.keyed.issue_round_trip hnow r).2.2.2 p hissue s.keyed rfl rfl
  have hlater : (s.keyed.ttl .access : Int) < s.keyed.ttl .refresh := Int.ofNat_lt.2 h
  exact ⟨s.keyed.claimsFor _ r .access, s.keyed.claimsFor _ r .refresh,
    Int.add_lt_add_left hlater _, fun t => ⟨hparse t .access, hparse t .refresh⟩⟩

namespace Config

/-- **Layers.**  A text is refused as a file exactly if it is no document of the right shape.  Else
there is exactly one configuration in which every setting has the value of its own variable, of the
file, or its default, in this order; it is loaded if it can be used, and refused otherwise.  A
variable changes no setting but its own.  And whatever is loaded issues pairs whose refresh token
expires later. -/
theorem load_layered (text : String) (env : Environment) :
    ((∃ reason, load (.text text) env = .error (.parseToml reason)) ↔
      ¬∃ es, Toml.parse text = some es ∧ Shaped es) ∧
    (∀ es, Toml.parse text = some es → Shaped es → ∃ c : Config,
      (∀ c', Layered env es c' ↔ c' = c) ∧ (c.Usable → load (.text text) env = .ok c) ∧
      (¬c.Usable → ∃ v, load (.text text) env = .error (.validation v))) ∧
    (∀ (s : Setting) (value : Option String) (c c' : Config), load (.text text) env = .ok c →
      load (.text text) (Function.update env s.envName value) = .ok c' →
        ∀ t, t ≠ s → c'.get t = c.get t) ∧
    ∀ c, load (.text text) env = .ok c → ∀ clock r p,
      c.token.issue (Timestamp.ofNanos clock).seconds r = .ok p → c.token.Staggers p := by
  refine ⟨⟨?_, fun h => ?_⟩, ?_, ?_, ?_⟩
  -- a text of the right shape is loaded or refused by the checks, and neither is the error of a
  -- file
  · rintro ⟨reason, herror⟩ ⟨es, hparse, hshape⟩
    obtain ⟨file, hfile, -⟩ := ofDocument?_of_shaped hshape
    rcases load_cases (ofText_of_ofDocument? hparse hfile) env with ⟨-, hload⟩ | ⟨-, v, hload⟩
    · cases herror.symm.trans hload
    · cases herror.symm.trans hload
  · obtain ⟨reason, hreason⟩ := ofText_of_not_shaped h
    exact ⟨reason, load_of_ofText_error hreason env⟩
  · intro es hparse hshape
    obtain ⟨file, hfile, hget⟩ := ofDocument?_of_shaped hshape
    refine ⟨file.override env, layered_iff_of_shaped hshape hget, ?_⟩
    rcases load_cases (ofText_of_ofDocument? hparse hfile) env with
      ⟨husable, hload⟩ | ⟨hunusable, hload⟩
    · exact ⟨fun _ => hload, fun hunusable => absurd husable hunusable⟩
    · exact ⟨fun husable => absurd husable hunusable, fun _ => hload⟩
  · intro s value c c' h h' t hne
    -- both are the same file under two environments, so they differ as these do
    obtain ⟨file, hfile, rfl, -⟩ := of_load_eq_ok h
    obtain ⟨file', hfile', rfl, -⟩ := of_load_eq_ok h'
    cases hfile.symm.trans hfile'
    exact get_override_update env file hne value
  · intro c h clock r p hissue
    obtain ⟨-, -, -, husable⟩ := of_load_eq_ok h
    exact TokenSigner.staggers_of_issue husable.refreshTtl hissue

/-- A file that sets a port and the life times of tokens. -/
def shortLived : String :=
  "[http]\nport = 9000\n[token]\nsecret = 'file'\naccess_ttl_secs = 60\nrefresh_ttl_secs = 600\n"

/-- An environment with a secret, another life time, and a port that is out of range. -/
def crampedEnvironment : Environment := fun name =>
  if name = "CORRAL_TOKEN_SECRET" then some "s"
  else if name = "CORRAL_TOKEN_REFRESH_TTL_SECS" then some "+61"
  else if name = "CORRAL_HTTP_PORT" then some "70000"
  else none

/-- What comes of both. -/
def cramped : Config where
  http.port := 9000
  token := ⟨"s", "corral.auth", 60, 61⟩

/-- The secret and the longer life time come from the environment, the port and the shorter life
time from the file, and the host from neither; a pair that is issued is staggered by one second. -/
theorem load_cramped :
    load (.text shortLived) crampedEnvironment = .ok cramped ∧
    (∃ es, Toml.parse shortLived = some es ∧ Shaped es ∧
      Setting.Provided crampedEnvironment es .tokenSecret "s" ∧
      Setting.Provided crampedEnvironment es .tokenRefreshTtl (61 : Nat) ∧
      Setting.Provided crampedEnvironment es .tokenAccessTtl (60 : Nat) ∧
      Setting.Provided crampedEnvironment es .httpPort (9000 : Nat) ∧
      Setting.Provided crampedEnvironment es .httpHost "0.0.0.0") ∧
    ∃ p, cramped.token.issue 0 ⟨"ann", .user, ""⟩ = .ok p ∧ cramped.token.Staggers p := by
  have hload : load (.text shortLived) crampedEnvironment = .ok cramped := by decide +kernel
  obtain ⟨hrefused, hlayers, -, hpairs⟩ := load_layered shortLived crampedEnvironment
  have hshaped : ∃ es, Toml.parse shortLived = some es ∧ Shaped es := by
    refine Classical.byContradiction fun h => ?_
    obtain ⟨reason, herror⟩ := hrefused.2 h
    cases hload.symm.trans herror
  obtain ⟨es, hparse, hes⟩ := hshaped
  obtain ⟨c, hlayered, hloaded, hunloaded⟩ := hlayers es hparse hes
  have hcramped : c = cramped := by
    by_cases husable : c.Usable
    · exact Except.ok.inj ((hloaded husable).symm.trans hload)
    · obtain ⟨v, herror⟩ := hunloaded husable
      cases hload.symm.trans herror
  have hprovided : Layered crampedEnvironment es cramped := (hlayered cramped).2 hcramped.symm
  refine ⟨hload, ⟨es, hparse, hes, hprovided .tokenSecret, hprovided .tokenRefreshTtl,
    hprovided .tokenAccessTtl, hprovided .httpPort, hprovided .httpHost⟩, ?_⟩
  have hfits : ∀ kind, KeyedSigner.Fits 0 (cramped.token.keyed.ttl kind) := by
    intro kind
    cases kind with | access | refresh => exact ⟨by decide, by decide⟩
  have hissue := KeyedSigner.issue_of_fits cramped.token.keyed (Int.le_refl 0)
    (r := ⟨"ann", .user, ""⟩) (by decide) hfits
  exact ⟨_, hissue, hpairs cramped hload 0 _ _ hissue⟩

end Config

end Gatehouse
