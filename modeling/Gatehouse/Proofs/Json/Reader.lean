import Gatehouse.Json.Reader
import Gatehouse.Proofs.Json.Lexer

/-!
# Gatehouse.Proofs.Json.Reader — written values are read back

`ofText?_render` is the main result: a value that is written and read again is the same value.  It
holds of every value whose integers fit into words of 64 bits with or without a sign (`Fits`), which
is all that a reader keeps of a numeral.

The tokens of a written value are known (`tokensOf_render`), so what is left is a statement about
tokens.  The reader spends a unit of fuel on each value, item and member, and a document has at
least one token for each of these, so the number of its tokens is fuel enough.  That is the
invariant (`TakesBack`): a value is taken from the front of any tokens that begin with its own,
given as much fuel.  The readers of items and members put what they have read before into the
result, so their lemmas carry that as a parameter, as the lemmas on documents carry what follows.
-/

namespace Gatehouse.Json.Value

open Document

/-! ## Values that are kept -/

mutual

/-- Whether every integer in a value fits into a word of 64 bits. -/
def Fits : Value → Prop
  | .null | .bool _ | .text _ => True
  | .integer n => -(Word.bound 63 : Int) ≤ n ∧ n < Word.bound 64
  | .array items => ItemsFit items
  | .object members => MembersFit members

/-- Whether every integer in some values does. -/
def ItemsFit : List Value → Prop
  | [] => True
  | v :: rest => v.Fits ∧ ItemsFit rest

/-- Whether every integer in some members does. -/
def MembersFit : List (String × Value) → Prop
  | [] => True
  | (_, v) :: rest => v.Fits ∧ MembersFit rest

end

/-- Some members fit if the value of each of them does. -/
theorem membersFit_iff {members : List (String × Value)} :
    MembersFit members ↔ ∀ m ∈ members, m.2.Fits := by
  induction members with
  | nil => exact iff_of_true trivial nofun
  | cons m members ih => rw [MembersFit, ih, List.forall_mem_cons]

/-! ## Taking values -/

/-- Whether a value is taken from the front of any tokens that begin with those of its document. -/
def TakesBack (v : Value) : Prop :=
  ∀ (fuel : Nat) (rest : List Token), v.document.tokens.length ≤ fuel →
    take fuel (v.document.tokens ++ rest) = some (v, rest)

theorem exists_fuel {fuel n : Nat} (h : n + 1 ≤ fuel) : ∃ m, fuel = m + 1 ∧ n ≤ m :=
  ⟨fuel - 1, by omega, by omega⟩

/-- A value of one token is taken if there is any fuel. -/
theorem takesBack_of_scalar {v : Value} {t : Token} (htokens : v.document.tokens = [t])
    (htake : ∀ fuel rest, take (fuel + 1) (t :: rest) = some (v, rest)) : TakesBack v := by
  intro fuel rest hfuel
  rw [htokens] at hfuel ⊢
  obtain ⟨m, rfl, -⟩ := exists_fuel hfuel
  exact htake m rest

/-- The document of a value begins neither with the end of an array nor with that of an object. -/
theorem take_array {v : Value} (fuel : Nat) (more : List Token) :
    take (fuel + 1) (.beginArray :: (v.document.tokens ++ more)) =
      (takeItems fuel [] (v.document.tokens ++ more)).map fun (vs, ts) => (.array vs, ts) := by
  obtain ⟨t, ts, hts, hend, -⟩ := exists_first v.document
  rw [hts, List.cons_append, take]
  exact fun _ h => hend (List.cons.inj h).1

mutual

/-- **Taking.**  A value that is kept is taken back from its tokens. -/
theorem takesBack (v : Value) (hfits : v.Fits) : TakesBack v := by
  match v with
  | .null => exact takesBack_of_scalar rfl fun _ _ => rfl
  | .bool b => exact takesBack_of_scalar rfl fun _ _ => rfl
  | .text s => exact takesBack_of_scalar rfl fun _ _ => rfl
  | .integer n =>
      have hwhole := Numeral.ofInteger_eq_whole hfits.1 hfits.2
      refine takesBack_of_scalar (t := .number (.whole n)) ?_ fun _ _ => rfl
      rw [document, Document.tokens, hwhole]
  | .array [] =>
      intro fuel rest hfuel
      obtain ⟨m, rfl, -⟩ := exists_fuel hfuel
      rfl
  | .array (v :: items) =>
      intro fuel rest hfuel
      obtain ⟨m, rfl, hm⟩ := exists_fuel hfuel
      -- nothing has been read before the first item
      have hitems := takeItems_append (takesBack v hfits.1) items hfits.2 [] rest hm
      show take (m + 1) (.beginArray ::
        ((v.document.tokens ++ itemsAfter (documents items)) ++ rest)) = _
      rw [List.append_assoc, take_array, hitems]
      rfl
  | .object [] =>
      intro fuel rest hfuel
      obtain ⟨m, rfl, -⟩ := exists_fuel hfuel
      rfl
  | .object ((k, v) :: members) =>
      intro fuel rest hfuel
      obtain ⟨m, rfl, hm⟩ := exists_fuel hfuel
      have hmembers := takeMembers_append (takesBack v hfits.1) k members hfits.2 [] rest
        (Nat.le_of_succ_le (Nat.le_of_succ_le hm))
      show (takeMembers m [] (.text (.sound k) :: .colon ::
        ((v.document.tokens ++ membersAfter (namedDocuments members)) ++ rest))).map _ = _
      rw [List.append_assoc, hmembers]
      rfl

/-- The items of an array are taken, the first of which can be. -/
theorem takeItems_append {v : Value} (hv : TakesBack v) (items : List Value)
    (hfits : ItemsFit items) (acc : List Value) (rest : List Token) {fuel : Nat}
    (hfuel : (v.document.tokens ++ itemsAfter (documents items)).length ≤ fuel) :
    takeItems fuel acc (v.document.tokens ++ (itemsAfter (documents items) ++ rest)) =
      some (acc.reverse ++ v :: items, rest) := by
  rw [List.length_append] at hfuel
  match items with
  | [] =>
      obtain ⟨m, rfl, hm⟩ := exists_fuel hfuel
      show takeItems (m + 1) acc (v.document.tokens ++ .endArray :: rest) = _
      rw [takeItems, hv m _ hm]
      exact congrArg (fun vs => some (vs, rest)) List.reverse_cons
  | w :: items =>
      -- a comma stands between two values, and takes fuel as well
      have hcomma : (itemsAfter (documents (w :: items))).length =
          (w.document.tokens ++ itemsAfter (documents items)).length + 1 := rfl
      rw [hcomma] at hfuel
      obtain ⟨m, rfl, hm⟩ := exists_fuel hfuel
      have hitems := takeItems_append (takesBack w hfits.1) items hfits.2 (v :: acc) rest
        (Nat.le_trans (Nat.le_add_left _ _) hm)
      show takeItems (m + 1) acc (v.document.tokens ++
        .comma :: ((w.document.tokens ++ itemsAfter (documents items)) ++ rest)) = _
      rw [takeItems, hv m _ (by omega)]
      dsimp only
      rw [List.append_assoc, hitems, List.reverse_cons, List.append_assoc]
      rfl

/-- The members of an object are taken, the value of the first of which can be. -/
theorem takeMembers_append {v : Value} (hv : TakesBack v) (name : String)
    (members : List (String × Value)) (hfits : MembersFit members) (acc : List (String × Value))
    (rest : List Token) {fuel : Nat}
    (hfuel : (v.document.tokens ++ membersAfter (namedDocuments members)).length ≤ fuel) :
    takeMembers fuel acc (.text (.sound name) :: .colon ::
        (v.document.tokens ++ (membersAfter (namedDocuments members) ++ rest))) =
      some (acc.reverse ++ (name, v) :: members, rest) := by
  rw [List.length_append] at hfuel
  match members with
  | [] =>
      obtain ⟨m, rfl, hm⟩ := exists_fuel hfuel
      show takeMembers (m + 1) acc (.text (.sound name) :: .colon ::
        (v.document.tokens ++ .endObject :: rest)) = _
      rw [takeMembers, hv m _ hm]
      exact congrArg (fun ms => some (ms, rest)) List.reverse_cons
  | (k, w) :: members =>
      -- a comma, a name and a colon stand between two values, and take fuel as well
      have hcomma : (membersAfter (namedDocuments ((k, w) :: members))).length =
          (w.document.tokens ++ membersAfter (namedDocuments members)).length + 3 := rfl
      rw [hcomma] at hfuel
      obtain ⟨m, rfl, hm⟩ := exists_fuel hfuel
      have hmembers := takeMembers_append (takesBack w hfits.1) k members hfits.2
        ((name, v) :: acc) rest
        (Nat.le_trans (Nat.le_add_right _ 2) (Nat.le_trans (Nat.le_add_left _ _) hm))
      show takeMembers (m + 1) acc (.text (.sound name) :: .colon :: (v.document.tokens ++
        .comma :: .text (.sound k) :: .colon ::
          ((w.document.tokens ++ membersAfter (namedDocuments members)) ++ rest))) = _
      rw [takeMembers, hv m _ (by omega)]
      dsimp only
      rw [List.append_assoc, hmembers, List.reverse_cons, List.append_assoc]
      rfl

end

/-- **Values are read back.**  A text that a value was written as is read as that value. -/
theorem ofText?_render {v : Value} (hfits : v.Fits) : ofText? v.render = some v := by
  have htake := takesBack v hfits (2 * v.document.tokens.length) [] (by omega)
  rw [List.append_nil] at htake
  rw [ofText?, tokensOf_render, ofTokens?, htake]

end Gatehouse.Json.Value
