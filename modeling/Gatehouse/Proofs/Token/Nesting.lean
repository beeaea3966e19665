import Gatehouse.Proofs.Json.Document
import Gatehouse.Token.Signed

/-!
# Gatehouse.Proofs.Token.Nesting — values that are read whatever their shape

A key in a header and an audience in a payload are read as values of any shape before anybody asks
what they are.  Two things are asked of the tokens then: how deeply their brackets nest, and where a
reader stands that has met a word it refuses.  This module says both of documents.

* `nesting_eq_depth` : the nesting that is counted over the tokens is the depth of the tree.  The
  count goes up and down with the brackets, so the induction is on the document with any brackets
  open before it and any tokens behind it.
* `endsBehind_iff` : the reader ends behind a value exactly if every word it would refuse is refused
  at its end and has only closing brackets behind it.  There is then at most one such word.
-/

namespace Gatehouse

open Gatehouse.Json

namespace Json.Document

mutual

/-- How deeply the brackets of a document nest. -/
def depth : Document → Nat
  | .null | .bool _ | .number _ | .text _ => 0
  | .array items => itemsDepth items + 1
  | .object members => membersDepth members + 1

/-- The depth of the deepest of some documents. -/
def itemsDepth : List Document → Nat
  | [] => 0
  | d :: rest => max d.depth (itemsDepth rest)

/-- The depth of the deepest of some members. -/
def membersDepth : List (Quoted × Document) → Nat
  | [] => 0
  | (_, d) :: rest => max d.depth (membersDepth rest)

end

end Json.Document

namespace KeyedSigner

open Json.Document

mutual

/-- The tokens of a document nest as deeply as it does, and leave as many brackets open as were. -/
theorem nesting_tokens (d : Document) (opened : Nat) (rest : List Json.Token) :
    nesting opened (d.tokens ++ rest) = max (opened + d.depth) (nesting opened rest) := by
  match d with
  | .null | .bool _ | .number _ | .text _ => rfl
  | .array [] | .object [] =>
      show max (opened + 1) (nesting (opened + 1 - 1) rest) = max (opened + 1) (nesting opened rest)
      rw [Nat.add_sub_cancel]
  | .array (d :: items) =>
      show max (opened + 1) (nesting (opened + 1) ((d.tokens ++ itemsAfter items) ++ rest)) =
        max (opened + (max d.depth (itemsDepth items) + 1)) (nesting opened rest)
      have hitems := nesting_itemsAfter items opened rest
      rw [List.append_assoc, nesting_tokens d]
      omega
  | .object ((name, d) :: members) =>
      show max (opened + 1) (max (opened + 1) (max (opened + 1) (nesting (opened + 1)
          ((d.tokens ++ membersAfter members) ++ rest)))) =
        max (opened + (max d.depth (membersDepth members) + 1)) (nesting opened rest)
      have hmembers := nesting_membersAfter members opened rest
      rw [List.append_assoc, nesting_tokens d]
      omega

/-- The same of the items that follow the first bracket or an item, with that bracket still open. -/
theorem nesting_itemsAfter (items : List Document) (opened : Nat) (rest : List Json.Token) :
    max (opened + 1) (nesting (opened + 1) (itemsAfter items ++ rest)) =
      max (opened + 1 + itemsDepth items) (nesting opened rest) := by
  match items with
  | [] =>
      show max (opened + 1) (nesting (opened + 1 - 1) rest) = max (opened + 1) (nesting opened rest)
      rw [Nat.add_sub_cancel]
  | d :: items =>
      show max (opened + 1) (max (opened + 1) (nesting (opened + 1)
          ((d.tokens ++ itemsAfter items) ++ rest))) =
        max (opened + 1 + max d.depth (itemsDepth items)) (nesting opened rest)
      have hitems := nesting_itemsAfter items opened rest
      rw [List.append_assoc, nesting_tokens d]
      omega

/-- The same of the members that follow the first bracket or a member. -/
theorem nesting_membersAfter (members : List (Quoted × Document)) (opened : Nat)
    (rest : List Json.Token) :
    max (opened + 1) (nesting (opened + 1) (membersAfter members ++ rest)) =
      max (opened + 1 + membersDepth members) (nesting opened rest) := by
  match members with
  | [] =>
      show max (opened + 1) (nesting (opened + 1 - 1) rest) = max (opened + 1) (nesting opened rest)
      rw [Nat.add_sub_cancel]
  | (name, d) :: members =>
      show max (opened + 1) (max (opened + 1) (max (opened + 1) (max (opened + 1)
          (nesting (opened + 1) ((d.tokens ++ membersAfter members) ++ rest))))) =
        max (opened + 1 + max d.depth (membersDepth members)) (nesting opened rest)
      have hmembers := nesting_membersAfter members opened rest
      rw [List.append_assoc, nesting_tokens d]
      omega

end

/-- **Nesting.**  The brackets of a document nest as deeply as its tree. -/
theorem nesting_eq_depth (d : Document) : nesting 0 d.tokens = d.depth := by
  have h := nesting_tokens d 0 []
  rw [List.append_nil] at h
  rw [h, nesting]
  omega

/-- Whether a reader that looks at every word of a value stands behind it at last: a word that it
refuses is refused at its end, and only closing brackets follow. -/
def EndsBehind (d : Document) : Prop :=
  ∀ before t after stop, d.tokens = before ++ t :: after → t.stop? = some stop →
    stop = .behind ∧ ∀ u ∈ after, isClosing u = true

/-- No bracket that closes is refused. -/
theorem stop?_of_isClosing {t : Json.Token} (h : isClosing t = true) : t.stop? = none := by
  cases t with
  | endArray | endObject => rfl
  | _ => cases h

/-- What holds of every token of a list, with those behind it, holds of the first and of the rest. -/
theorem forall_split_cons {P : Json.Token → List Json.Token → Prop} {u : Json.Token}
    {ts : List Json.Token} : (∀ before t after, u :: ts = before ++ t :: after → P t after) ↔
      P u ts ∧ ∀ before t after, ts = before ++ t :: after → P t after := by
  constructor
  · intro h
    refine ⟨h [] u ts rfl, fun before t after hts => ?_⟩
    exact h (u :: before) t after (by rw [hts, List.cons_append])
  · rintro ⟨hfirst, hrest⟩ before t after hts
    cases before with
    | nil =>
        cases hts
        exact hfirst
    | cons v before => exact hrest before t after (List.cons.inj hts).2

/-- A reader ends behind some tokens exactly if the first that it refuses is refused at its end and
has only closing brackets behind it. -/
theorem endsBehind_eq_true_iff (ts : List Json.Token) : endsBehind ts = true ↔
    ∀ before t after, ts = before ++ t :: after → ∀ stop, t.stop? = some stop →
      stop = .behind ∧ ∀ u ∈ after, isClosing u = true := by
  induction ts with
  | nil => exact iff_of_true rfl fun before _ _ h => by cases before with | nil | cons => cases h
  | cons u ts ih =>
      rw [endsBehind, forall_split_cons, ← ih]
      cases hu : u.stop? with
      | none => exact (and_iff_right nofun).symm
      | some stop =>
          cases stop with
          | within => exact iff_of_false nofun fun h => nomatch (h.1 _ rfl).1
          | behind =>
              dsimp only
              rw [List.all_eq_true, ih]
              constructor
              · intro h
                refine ⟨fun stop hstop => ⟨(Option.some.inj hstop).symm, h⟩, ?_⟩
                -- what follows the first word that is refused is never refused itself
                intro before t after hts stop ht
                have hclosing : isClosing t = true := h t (by simp [hts])
                rw [stop?_of_isClosing hclosing] at ht
                cases ht
              · exact fun h => (h.1 _ rfl).2

/-- **Words.**  A reader ends behind a value as `EndsBehind` says. -/
theorem endsBehind_iff (d : Document) : endsBehind d.tokens = true ↔ EndsBehind d := by
  refine (endsBehind_eq_true_iff d.tokens).trans ⟨?_, ?_⟩
  · exact fun h before t after stop hts => h before t after hts stop
  · exact fun h before t after hts stop => h before t after stop hts

end KeyedSigner

end Gatehouse
