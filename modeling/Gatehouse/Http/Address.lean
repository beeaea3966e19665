import Gatehouse.Text.Digits
import Gatehouse.Text.Split

/-!
# Gatehouse.Http.Address — where to listen

An address is a host and a port.  The host is four numbers below 256 without leading zeros, or, in
brackets, eight groups of up to four hexadecimal digits: `::` stands for one or more groups of
zeros, the last two groups may be written as four numbers, and a zone may follow behind `%`.

Addresses are read only to find out whether the service can be told to listen at one: a command that
serves fails with the text of the address if there is no `Address` for it, and hands the address to
its host otherwise.  Names of hosts are not looked up, blanks are not dropped, and no number has a
sign.
-/

namespace Gatehouse.Http

open Gatehouse.Text

/-- The numbers of a host. -/
inductive Host where
  | v4 (octets : List Nat)
  | v6 (groups : List Nat) (zone : Nat)
deriving DecidableEq, Repr

/-- A host and a port. -/
structure Address where
  host : Host
  port : Nat
deriving DecidableEq, Repr

namespace Address

/-- A number below 256 in up to three digits, without leading zeros. -/
def octet? (s : List Char) : Option Nat := do
  let n ← decimal? s
  if n < 256 ∧ (s.head? ≠ some '0' ∨ s.length = 1) then some n else none

/-- Four numbers between points. -/
def octets? (s : List Char) : Option (List Nat) :=
  let pieces := splitAt '.' s
  if pieces.length = 4 then pieces.mapM octet? else none

/-- A group of up to four hexadecimal digits. -/
def group? (s : List Char) : Option Nat :=
  if s.isEmpty ∨ 4 < s.length then none else numeral? hexDigit? 16 0 s

/-- Groups between colons, of which the last may be two that are written as four numbers. -/
def groups? (numbersAllowed : Bool) (s : List Char) : Option (List Nat) :=
  if s.isEmpty then some []
  else
    match (splitAt ':' s).reverse with
    | [] => none
    | last :: before => do
      let before ← before.reverse.mapM group?
      match group? last, octets? last with
      | some g, _ => return before ++ [g]
      | none, some [a, b, c, d] =>
        if numbersAllowed then return before ++ [a * 256 + b, c * 256 + d] else none
      | none, _ => none

/-- What stands before the first two colons in a row, and what stands after them. -/
def splitDouble : List Char → Option (List Char × List Char)
  | [] => none
  | c :: rest =>
    if c = ':' ∧ rest.head? = some ':' then some ([], rest.tail)
    else (splitDouble rest).map fun (before, after) => (c :: before, after)

/-- Eight groups, some of which may be left out. -/
def v6Groups? (s : List Char) : Option (List Nat) := do
  match splitDouble s with
  -- four numbers may end the groups only where all of them are written, or behind the gap
  | none =>
    let groups ← groups? true s
    if groups.length = 8 then some groups else none
  | some (before, after) =>
    let front ← groups? false before
    let back ← groups? true after
    if front.length + back.length < 8 then
      some (front ++ List.replicate (8 - front.length - back.length) 0 ++ back)
    else none

/-- A host in brackets, with its zone. -/
def v6? (s : List Char) : Option Host := do
  let (groups, zone) := splitFirst '%' s
  let zone ← match zone with
    | none => some 0
    | some digits => (decimal? digits).filter (· < Word.bound 32)
  return .v6 (← v6Groups? groups) zone

/-- A port, behind its colon. -/
def port? : List Char → Option Nat
  | ':' :: digits => (decimal? digits).filter (· < Word.bound 16)
  | _ => none

/-- The address of a text. -/
def read? (s : String) : Option Address :=
  match s.toList with
  | '[' :: rest =>
    match splitFirst ']' rest with
    | (host, some port) => do return ⟨← v6? host, ← port? port⟩
    | (_, none) => none
  | cs => do
    let host := cs.takeWhile (· != ':')
    return ⟨.v4 (← octets? host), ← port? (cs.dropWhile (· != ':'))⟩

end Address

end Gatehouse.Http
