import Gatehouse.Config.Load
import Gatehouse.Proofs.Text.Digits

/-!
# Gatehouse.Proofs.Config.Setting — what a setting is read from

A setting is read from a variable of the environment that spells a value of its kind (`Kind.Reads`),
or from the place in a document where it belongs (`Setting.InDocument`).  Both are said here without
the readers: a numeral is a row of digits that may stand behind a plus sign, and a value that
chooses a name is the name itself or a table with that name in it and nothing else.  The readers are
then proved to come to exactly that.

The two ways differ in what they do about a value of the wrong kind.  A variable that cannot be read
counts as one that is not set; an entry of a document that cannot be read makes the whole document
unreadable.  So the reader of the environment has one kind of failure, and that of documents keeps
apart what is not there and what is not a value.

A configuration is no more than the values of its settings (`Config.ext_get`), and a row of settings
can be put one after the other (`Config.get_foldl_putAny`).  With these two nothing further down has
to name the eighteen settings again.
-/

namespace Gatehouse

open Gatehouse.Text

/-! ## Kinds -/

theorem Backend.ofName?_eq_some_iff {s : String} {b : Backend} :
    Backend.ofName? s = some b ↔ s = b.name := by
  cases b with | memory | postgres => grind [Backend.ofName?, Backend.name]

theorem LogFormat.ofName?_eq_some_iff {s : String} {f : LogFormat} :
    LogFormat.ofName? s = some f ↔ s = f.name := by
  cases f with | json | pretty => grind [LogFormat.ofName?, LogFormat.name]

namespace Kind

/-- Whether a text is a decimal numeral of a number, which may stand behind a plus sign. -/
def IsNumeral (text : String) (n : Nat) : Prop :=
  ∃ digits, (text.toList = digits ∨ text.toList = '+' :: digits) ∧ digits ≠ [] ∧
    (∀ c ∈ digits, c.isDigit = true) ∧ Nat.ofDigitChars 10 digits 0 = n

/-- Whether a text spells a value of a kind. -/
def Reads : (k : Kind) → String → k.Value → Prop
  | text, s, v => s = v
  | natural bound, s, n => n < bound ∧ IsNumeral s n
  | backend, s, b => s = b.name
  | format, s, f => s = f.name

/-- A text is read as a value exactly if it spells it. -/
theorem ofText?_eq_some_iff {k : Kind} {s : String} {v : k.Value} :
    k.ofText? s = some v ↔ k.Reads s v := by
  cases k with
  | text => exact Option.some_inj
  | natural bound =>
      refine unsigned?_eq_some_iff.trans (and_congr_right' (exists_congr fun digits => ?_))
      rw [decimal?_eq_some_iff]
  | backend => exact Backend.ofName?_eq_some_iff
  | format => exact LogFormat.ofName?_eq_some_iff

/-- Whether a value of a settings file chooses a name: it is the name, or a table whose only entry
has this name and holds nothing. -/
inductive Chooses (name : String) : Toml.Value → Prop where
  | text : Chooses name (.text name)
  | table (o o' : Toml.Origin) : Chooses name (.table o [(name, .table o' [])])
  | array (o : Toml.Origin) : Chooses name (.table o [(name, .array [])])

/-- The name that is read from a value is the one that it chooses. -/
theorem chosenName?_eq_some_iff {v : Toml.Value} {name : String} :
    chosenName? v = some name ↔ Chooses name v := by
  constructor
  · intro h
    unfold chosenName? at h
    split at h
    · exact Option.some.inj h ▸ .text
    · exact Option.some.inj h ▸ .table _ _
    · exact Option.some.inj h ▸ .array _
    · cases h
  · intro h
    cases h with | text | table | array => rfl

/-- Whether a value of a settings file is a value of a kind. -/
def Spells : (k : Kind) → Toml.Value → k.Value → Prop
  | text, v, s => v = .text s
  | natural bound, v, n => n < bound ∧ v = .integer (n : Nat)
  | backend, v, b => Chooses b.name v
  | format, v, f => Chooses f.name v

/-- What is read by the name that a value chooses. -/
theorem bind_chosenName?_eq_some_iff {α : Type} {ofName? : String → Option α} {name : α → String}
    (hname : ∀ {s a}, ofName? s = some a ↔ s = name a) {v : Toml.Value} {a : α} :
    (chosenName? v).bind ofName? = some a ↔ Chooses (name a) v := by
  rw [Option.bind_eq_some_iff]
  constructor
  · rintro ⟨s, hchosen, hs⟩
    exact hname.1 hs ▸ chosenName?_eq_some_iff.1 hchosen
  · exact fun h => ⟨name a, chosenName?_eq_some_iff.2 h, hname.2 rfl⟩

theorem ofToml?_eq_some_iff {k : Kind} {v : Toml.Value} {x : k.Value} :
    k.ofToml? v = some x ↔ k.Spells v x := by
  cases k with
  | text =>
      cases v with
      | text s => exact Option.some_inj.trans (by rw [Spells, Toml.Value.text.injEq])
      | integer | real | bool | moment | array | table | tables => exact iff_of_false nofun nofun
  | natural bound =>
      cases v with
      | integer i =>
          have hinteger : ∀ n : Nat, (if 0 ≤ i ∧ i < bound then some i.toNat else none) = some n ↔
              n < bound ∧ Toml.Value.integer i = .integer n := by
            intro n
            rw [Toml.Value.integer.injEq]
            split <;> grind
          exact hinteger x
      | text | real | bool | moment | array | table | tables =>
          exact iff_of_false nofun fun h => nomatch h.2
  | backend => exact bind_chosenName?_eq_some_iff Backend.ofName?_eq_some_iff
  | format => exact bind_chosenName?_eq_some_iff LogFormat.ofName?_eq_some_iff

end Kind

/-! ## Settings -/

namespace Setting

theorem mem_all (s : Setting) : s ∈ all := by cases s <;> decide

/-- Every setting has a variable of its own. -/
theorem envName_inj {s t : Setting} (h : s.envName = t.envName) : s = t := by
  have hinj : ∀ s ∈ all, ∀ t ∈ all, s.envName = t.envName → s = t := by decide
  exact hinj s s.mem_all t t.mem_all h

/-- Whether the variable of a setting is set and spells a value. -/
def InEnvironment (env : Environment) (s : Setting) (v : s.kind.Value) : Prop :=
  ∃ text, env s.envName = some text ∧ s.kind.Reads text v

/-- The environment has the value of a setting that its variable spells, and no other. -/
theorem inEnvironment?_eq_some_iff {env : Environment} {s : Setting} {v : s.kind.Value} :
    s.inEnvironment? env = some v ↔ s.InEnvironment env v := by
  refine Option.bind_eq_some_iff.trans (exists_congr fun text => and_congr_right' ?_)
  exact Kind.ofText?_eq_some_iff

/-- What a section of a document has in the place of a setting: in a table the value under its key,
in a list the value in its position, and in a date nothing. -/
inductive InSection (place : Place) : Toml.Value → Option Toml.Value → Prop where
  | table (o : Toml.Origin) (es : Toml.Entries) : InSection place (.table o es) (es.lookup place.key)
  | array (vs : List Toml.Value) : InSection place (.array vs) vs[place.index]?
  | tables (items : List Toml.Entries) :
    InSection place (.tables items) (items[place.index]?.map fun es => .table .named es)
  | moment : InSection place .moment none

theorem inSection?_eq_some_iff {place : Place} {v : Toml.Value} {found : Option Toml.Value} :
    inSection? place v = some found ↔ InSection place v found := by
  constructor
  · intro h
    cases v with
    | table o es => exact Option.some.inj h ▸ .table o es
    | array vs => exact Option.some.inj h ▸ .array vs
    | tables items => exact Option.some.inj h ▸ .tables items
    | moment => exact Option.some.inj h ▸ .moment
    | text | integer | real | bool => cases h
  · intro h
    cases h with | table | array | tables | moment => rfl

/-- What a document says of a setting: nothing if it has no section for it or the section has
nothing in its place, and otherwise the value of its kind that stands there. -/
inductive InDocument (es : Toml.Entries) (s : Setting) : Option s.kind.Value → Prop where
  | noSection (h : es.find? s.place.table = none) : InDocument es s none
  | noEntry {v : Toml.Value} (h : es.find? s.place.table = some v)
    (hsection : InSection s.place v none) : InDocument es s none
  | entry {v w : Toml.Value} {x : s.kind.Value} (h : es.find? s.place.table = some v)
    (hsection : InSection s.place v (some w)) (hspells : s.kind.Spells w x) :
    InDocument es s (some x)

/-- **Documents.**  What is read from a document for a setting is what the document says of it; if
it says nothing that is a value of its kind, nothing is read. -/
theorem inDocument?_eq_some_iff {es : Toml.Entries} {s : Setting} {found : Option s.kind.Value} :
    s.inDocument? es = some found ↔ s.InDocument es found := by
  constructor
  · intro h
    unfold inDocument? at h
    split at h
    -- no section, no entry in it, or an entry that can be read
    · next hnone => exact Option.some.inj h ▸ .noSection hnone
    · next v hv =>
      split at h
      · cases h
      · next hsection => exact Option.some.inj h ▸ .noEntry hv (inSection?_eq_some_iff.1 hsection)
      · next w hsection =>
        obtain ⟨x, hx, rfl⟩ := Option.map_eq_some_iff.1 h
        exact .entry hv (inSection?_eq_some_iff.1 hsection) (Kind.ofToml?_eq_some_iff.1 hx)
  · intro h
    unfold inDocument?
    cases h with
    | noSection h => rw [h]
    | noEntry h hsection =>
        rw [h]
        dsimp only
        rw [inSection?_eq_some_iff.2 hsection]
    | entry h hsection hspells =>
        rw [h]
        dsimp only
        rw [inSection?_eq_some_iff.2 hsection]
        dsimp only
        rw [Kind.ofToml?_eq_some_iff.2 hspells]
        rfl

end Setting

/-! ## Configurations as the values of their settings -/

namespace Config

/-- A configuration has nothing but the values of its settings. -/
theorem ext_get {c c' : Config} (h : ∀ s, c.get s = c'.get s) : c = c' := by
  obtain ⟨⟨_, _⟩, ⟨_, _, _⟩, ⟨_, _, _, _⟩, ⟨_, _, _⟩, ⟨_, _, _, _⟩, ⟨_, _⟩⟩ := c
  obtain ⟨⟨_, _⟩, ⟨_, _, _⟩, ⟨_, _, _, _⟩, ⟨_, _, _⟩, ⟨_, _, _, _⟩, ⟨_, _⟩⟩ := c'
  cases h .httpHost
  cases h .httpPort
  cases h .databaseBackend
  cases h .databaseUrl
  cases h .databaseMaxConnections
  cases h .tokenSecret
  cases h .tokenIssuer
  cases h .tokenAccessTtl
  cases h .tokenRefreshTtl
  cases h .cachePolicyTtl
  cases h .cacheKeyTtl
  cases h .cacheConnectivityTtl
  cases h .eventsStream
  cases h .eventsMaxLen
  cases h .eventsProbeTimeout
  cases h .eventsDrainInterval
  cases h .logFormat
  cases h .logLevel
  rfl

/-- Putting a value, if there is one, changes no other setting. -/
theorem get_putAny (c : Config) {s : Setting} (v : Option s.kind.Value) {t : Setting} (h : t ≠ s) :
    (c.putAny s v).get t = c.get t := by
  cases v with
  | none => rfl
  | some v => exact c.get_put_of_ne v h

theorem get_putAny_self (c : Config) (s : Setting) (v : Option s.kind.Value) :
    (c.putAny s v).get s = v.getD (c.get s) := by
  cases v with
  | none => rfl
  | some v => exact c.get_put s v

/-- **A row of settings** that are put one after the other have the values that are put, and the
others stay. -/
theorem get_foldl_putAny (f : (s : Setting) → Option s.kind.Value) (row : List Setting) (c : Config)
    (t : Setting) : (row.foldl (fun c s => c.putAny s (f s)) c).get t =
      if t ∈ row then (f t).getD (c.get t) else c.get t := by
  induction row generalizing c with
  | nil => rfl
  | cons s row ih =>
      rw [List.foldl_cons, ih]
      rcases eq_or_ne t s with rfl | hne
      · rw [get_putAny_self, if_pos List.mem_cons_self]
        cases f t with | none | some => simp
      · rw [get_putAny c (f s) hne]
        simp [hne]

/-- A row of settings that may be unreadable is put if all of them can be read. -/
theorem foldlM_putAny (f : (s : Setting) → Option (Option s.kind.Value)) (row : List Setting)
    (c : Config) : row.foldlM (fun c s => (f s).map (c.putAny s)) c =
      if ∀ s ∈ row, (f s).isSome then some (row.foldl (fun c s => c.putAny s (f s).join) c)
      else none := by
  induction row generalizing c with
  | nil => rfl
  | cons s row ih =>
      rw [List.foldlM_cons]
      cases hs : f s with
      | none => simp [hs]
      | some v =>
          rw [Option.map_some, Option.bind_eq_bind, Option.bind_some, ih]
          simp [hs]

end Config

end Gatehouse
