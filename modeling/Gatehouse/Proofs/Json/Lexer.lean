import Mathlib.Data.List.Basic
import Gatehouse.Json.Value
import Gatehouse.Proofs.Json.Document
import Gatehouse.Proofs.Text.Digits

/-!
# Gatehouse.Proofs.Json.Lexer — the tokens of a written value

`Lexes` says of a text that it is a row of tokens without blanks, and `tokens_of_lexes` that these
are the tokens of the text.  A written value is such a text whatever follows it, unless that goes on
with a numeral (`lexes_renderChars`); so `tokensOf_render` is the main result: the tokens of a
written value are those of its document.

The statements carry what follows a value as a parameter, since a value within brackets is never the
whole text.  `Ends` is what they need of the text behind them.  In a written value that is always a
comma, a closing bracket or nothing.

Strings are the other part with some content.  The writer escapes a character in one of three ways,
and each is one piece for the lexer, so a written string is as many pieces as it has characters
(`takeStringAfter_escaped`) and the pieces are its characters again (`assembleAfter_map_pieceOf`).
The two steps are apart because a piece need not be a character: a text from elsewhere may spell one
character by two pieces, each half of a pair, and pieces are only put together at the end of the
string.

An integer is the token of its value if it fits a word of 64 bits with or without a sign
(`Numeral.ofInteger_eq_whole`); a larger one would be read as a number that is no integer.
-/

namespace Gatehouse.Json

open Gatehouse.Text

/-! ## Texts without blanks -/

/-- Whether a text is a row of tokens without a blank between them. -/
inductive Lexes : List (Option Char) → List Token → Prop where
  | done : Lexes [] []
  | token {c : Char} {s rest : List (Option Char)} {t : Token} {ts : List Token}
    (hc : isSpace (some c) = false) (htake : takeToken (some c :: s) = some (t, rest))
    (hrest : rest.length ≤ s.length) (h : Lexes rest ts) : Lexes (some c :: s) (t :: ts)

/-- The lexer goes token by token; each takes at least one character, so there is fuel enough. -/
theorem tokensAfter_of_lexes {s : List (Option Char)} {ts : List Token} (h : Lexes s ts)
    (acc : List Token) {fuel : Nat} (hfuel : s.length < fuel) :
    tokensAfter acc fuel s = acc.reverse ++ ts := by
  induction h generalizing acc fuel with
  | done =>
      obtain ⟨fuel, rfl⟩ := Nat.exists_eq_add_one_of_ne_zero (Nat.ne_zero_of_lt hfuel)
      exact (List.append_nil _).symm
  | @token c s rest t ts hc htake hrest h ih =>
      obtain ⟨fuel, rfl⟩ := Nat.exists_eq_add_one_of_ne_zero (Nat.ne_zero_of_lt hfuel)
      rw [List.length_cons] at hfuel
      have hdrop : (some c :: s).dropWhile isSpace = some c :: s :=
        List.dropWhile_cons_of_neg (by rw [hc]; exact Bool.false_ne_true)
      rw [tokensAfter, hdrop]
      dsimp only
      rw [htake]
      dsimp only
      rw [ih (t :: acc) (by omega), List.reverse_cons, List.append_assoc]
      rfl

/-- A text without blanks has the tokens that it is a row of. -/
theorem tokens_of_lexes {s : List (Option Char)} {ts : List Token} (h : Lexes s ts) :
    tokens s = ts := tokensAfter_of_lexes h [] (Nat.lt_succ_self _)

/-- The characters of a token in front of a text without blanks. -/
theorem lexes_of_takeToken {c : Char} {cs : List Char} {rest : List (Option Char)} {t : Token}
    {ts : List Token} (hc : isSpace (some c) = false)
    (htake : takeToken ((c :: cs).map some ++ rest) = some (t, rest)) (h : Lexes rest ts) :
    Lexes ((c :: cs).map some ++ rest) (t :: ts) := by
  refine .token hc htake ?_ h
  show rest.length ≤ (cs.map some ++ rest).length
  rw [List.length_append]
  exact Nat.le_add_left _ _

/-! ## Strings -/

/-- The piece that a character is in a written string. -/
def pieceOf (c : Char) : Piece :=
  if c.toNat < 0x20 ∧ c ∉ ['\x08', '\x0c', '\n', '\r', '\t'] then .unit c.toNat else .char c

theorem hexUnit?_control : ∀ n < 0x20,
    hexUnit? (some '0') (some '0') (some (hexDigit (n / 16))) (some (hexDigit (n % 16))) =
      some n := by decide

section

variable (acc : List Piece) (rest : List (Option Char))

theorem takeStringAfter_quote :
    takeStringAfter acc (some '"' :: rest) = some (acc.reverse, rest) := by
  rw [takeStringAfter.eq_def]
  rfl

theorem takeStringAfter_short {e c : Char} (hu : e ≠ 'u') (he : shortEscape? e = some c) :
    takeStringAfter acc (some '\\' :: some e :: rest) = takeStringAfter (.char c :: acc) rest := by
  rw [takeStringAfter.eq_def]
  dsimp only
  rw [if_neg (by decide), if_pos rfl, if_neg hu, he]

theorem takeStringAfter_unit {a b c d : Option Char} {n : Nat} (h : hexUnit? a b c d = some n) :
    takeStringAfter acc (some '\\' :: some 'u' :: a :: b :: c :: d :: rest) =
      takeStringAfter (.unit n :: acc) rest := by
  rw [takeStringAfter.eq_def]
  dsimp only
  rw [if_neg (by decide), if_pos rfl, if_pos rfl, h]

theorem takeStringAfter_char {c : Char} (hquote : c ≠ '"') (hslash : c ≠ '\\')
    (hcontrol : ¬ c.toNat < 0x20) :
    takeStringAfter acc (some c :: rest) = takeStringAfter (.char c :: acc) rest := by
  rw [takeStringAfter.eq_def]
  dsimp only
  rw [if_neg hquote, if_neg hslash, if_neg hcontrol]

/-- A written character is one piece of the string. -/
theorem takeStringAfter_escapeChar (c : Char) :
    takeStringAfter acc ((escapeChar c).map some ++ rest) =
      takeStringAfter (pieceOf c :: acc) rest := by
  have hshort : ∀ e : Char, e ≠ 'u' → shortEscape? e = some c → escapeChar c = ['\\', e] →
      pieceOf c = .char c → takeStringAfter acc ((escapeChar c).map some ++ rest) =
        takeStringAfter (pieceOf c :: acc) rest := by
    intro e hu he hescape hpiece
    rw [hescape, hpiece]
    exact takeStringAfter_short acc rest hu he
  -- the characters that have an escape of one letter, then the other control characters
  by_cases hlisted : c ∈ ['"', '\\', '\x08', '\x0c', '\n', '\r', '\t']
  · simp only [List.mem_cons, List.not_mem_nil, or_false] at hlisted
    rcases hlisted with rfl | rfl | rfl | rfl | rfl | rfl | rfl
    · exact hshort '"' (by decide) rfl rfl rfl
    · exact hshort '\\' (by decide) rfl rfl rfl
    · exact hshort 'b' (by decide) rfl rfl rfl
    · exact hshort 'f' (by decide) rfl rfl rfl
    · exact hshort 'n' (by decide) rfl rfl rfl
    · exact hshort 'r' (by decide) rfl rfl rfl
    · exact hshort 't' (by decide) rfl rfl rfl
  · simp only [List.mem_cons, List.not_mem_nil, or_false, not_or] at hlisted
    obtain ⟨hquote, hslash, hb, hf, hn, hr, ht⟩ := hlisted
    unfold escapeChar pieceOf
    rw [if_neg hquote, if_neg hslash, if_neg hb, if_neg hf, if_neg hn, if_neg hr, if_neg ht]
    by_cases hcontrol : c.toNat < 0x20
    · rw [if_pos hcontrol, if_pos ⟨hcontrol, by simp [hb, hf, hn, hr, ht]⟩]
      exact takeStringAfter_unit acc rest (hexUnit?_control _ hcontrol)
    · rw [if_neg hcontrol, if_neg fun h => hcontrol h.1]
      exact takeStringAfter_char acc rest hquote hslash hcontrol

end

/-- A written string is taken up to its quote, each character as its piece. -/
theorem takeStringAfter_escaped (cs : List Char) (acc : List Piece) (rest : List (Option Char)) :
    takeStringAfter acc ((cs.flatMap escapeChar).map some ++ some '"' :: rest) =
      some (acc.reverse ++ cs.map pieceOf, rest) := by
  induction cs generalizing acc with
  | nil => rw [List.map_nil, List.append_nil]; exact takeStringAfter_quote acc rest
  | cons c cs ih =>
      rw [List.flatMap_cons, List.map_append, List.append_assoc, takeStringAfter_escapeChar, ih,
        List.reverse_cons, List.append_assoc]
      rfl

/-- A control character is no half of a pair, and is itself as a unit. -/
theorem assembleAfter_pieceOf (c : Char) (acc : List Char) (ps : List Piece) :
    assembleAfter acc (pieceOf c :: ps) = assembleAfter (c :: acc) ps := by
  unfold pieceOf
  split
  · next hcontrol =>
    have hscalar : scalar? c.toNat = some c := dif_pos c.valid
    rw [assembleAfter.eq_def]
    dsimp only
    rw [if_neg fun h => absurd (Nat.lt_of_le_of_lt h.1 hcontrol.1) (by decide), hscalar]
  · rw [assembleAfter.eq_def]

/-- The pieces of characters are put together to these characters. -/
theorem assembleAfter_map_pieceOf (cs acc : List Char) :
    assembleAfter acc (cs.map pieceOf) = .ok (acc.reverse ++ cs) := by
  induction cs generalizing acc with
  | nil =>
      rw [List.append_nil]
      rfl
  | cons c cs ih =>
      rw [List.map_cons, assembleAfter_pieceOf, ih, List.reverse_cons, List.append_assoc]
      rfl

/-- A written string is the token of its text. -/
theorem lexes_renderText (s : String) {rest : List (Option Char)} {tail : List Token}
    (h : Lexes rest tail) :
    Lexes ((renderText s).map some ++ rest) (.text (.sound s) :: tail) := by
  have hpieces : Quoted.ofPieces (s.toList.map pieceOf) = .sound s := by
    rw [Quoted.ofPieces, assembleAfter_map_pieceOf]
    exact congrArg Quoted.sound String.ofList_toList
  have htake : takeString ((s.toList.flatMap escapeChar ++ ['"']).map some ++ rest) =
      some (s.toList.map pieceOf, rest) := by
    rw [List.map_append, List.append_assoc]
    exact takeStringAfter_escaped s.toList [] rest
  refine lexes_of_takeToken rfl ?_ h
  show (takeString ((s.toList.flatMap escapeChar ++ ['"']).map some ++ rest)).map _ = _
  rw [htake, Option.map_some]
  dsimp only
  rw [hpieces]

/-! ## Integers -/

/-- Whether what follows a numeral does not go on with it. -/
def Ends (rest : List (Option Char)) : Prop :=
  ∀ c more, rest = some c :: more → isDigit c = false ∧ c ∉ ['.', 'e', 'E']

/-- Characters of a kind are taken up to the first that is not of this kind. -/
theorem spanCharsAfter_append {p : Char → Bool} {cs : List Char} (hcs : ∀ c ∈ cs, p c = true)
    {rest : List (Option Char)} (hrest : ∀ c more, rest = some c :: more → p c = false)
    (acc : List Char) :
    spanCharsAfter p acc (cs.map some ++ rest) = (acc.reverse ++ cs, rest) := by
  induction cs generalizing acc with
  | nil =>
      rw [List.map_nil, List.nil_append, List.append_nil]
      match rest, hrest with
      | [], _ => rfl
      | none :: more, _ => rfl
      | some c :: more, hrest =>
          rw [spanCharsAfter, hrest c more rfl]
          rfl
  | cons c cs ih =>
      rw [List.map_cons, List.cons_append, spanCharsAfter, hcs c List.mem_cons_self, if_pos rfl,
        ih (fun d hd => hcs d (List.mem_cons_of_mem c hd)), List.reverse_cons, List.append_assoc]
      rfl

/-- A written numeral is taken as a whole. -/
theorem takeNumeral_toDigits (negative : Bool) (n : Nat) {rest : List (Option Char)}
    (hrest : Ends rest) :
    takeNumeral negative ((Nat.toDigits 10 n).map some ++ rest) =
      some (⟨negative, Nat.toDigits 10 n, none, none⟩, rest) := by
  have hspan : spanChars isDigit ((Nat.toDigits 10 n).map some ++ rest) =
      (Nat.toDigits 10 n, rest) :=
    spanCharsAfter_append (fun c => isDigit_of_mem_toDigits)
      (fun c more h => (hrest c more h).1) []
  have hshape : ¬ ((Nat.toDigits 10 n).isEmpty = true ∨
      (Nat.toDigits 10 n).head? = some '0' ∧ 1 < (Nat.toDigits 10 n).length) := by
    rintro (hempty | ⟨hhead, hlength⟩)
    · exact Nat.toDigits_ne_nil (List.isEmpty_iff.1 hempty)
    · rw [eq_zero_of_head?_toDigits hhead] at hlength
      exact absurd hlength (by decide)
  unfold takeNumeral
  rw [hspan]
  dsimp only
  rw [if_neg hshape]
  -- neither a fraction nor an exponent follows
  match rest, hrest with
  | [], _ => rfl
  | none :: more, _ => rfl
  | some c :: more, hrest =>
      obtain ⟨-, hc⟩ := hrest c more rfl
      simp only [List.mem_cons, List.not_mem_nil, or_false, not_or] at hc
      obtain ⟨hpoint, he, hE⟩ := hc
      split
      · next h => exact absurd (Option.some.inj (List.cons.inj h).1) hpoint
      · simp only [Option.bind_eq_bind, Option.bind_some]
        split
        · next h => exact absurd (Option.some.inj (List.cons.inj h).1) he
        · next h => exact absurd (Option.some.inj (List.cons.inj h).1) hE
        · rfl

/-- What a reader can tell of a written integer. -/
def Numeral.ofInteger (n : Int) : Numeral :=
  .ofDecimal ⟨decide (n < 0), Nat.toDigits 10 n.natAbs, none, none⟩

/-- An integer that fits into a word is kept as what it is. -/
theorem Numeral.ofInteger_eq_whole {n : Int} (hlow : -(Word.bound 63 : Int) ≤ n)
    (hhigh : n < Word.bound 64) : Numeral.ofInteger n = .whole n := by
  unfold Numeral.ofInteger Numeral.ofDecimal
  dsimp only
  rw [decimal?_toDigits]
  dsimp only [Option.getD_some]
  by_cases hn : n < 0
  · rw [decide_eq_true hn, if_pos rfl, if_pos (by omega)]
    congr 1
    omega
  · rw [decide_eq_false hn, if_neg Bool.false_ne_true, if_pos (by omega)]
    congr 1
    omega

theorem takeToken_of_isDigit {c : Char} (hc : isDigit c = true) (rest : List (Option Char)) :
    takeToken (some c :: rest) =
      (takeNumeral false (some c :: rest)).map fun (d, r) => (.number (.ofDecimal d), r) := by
  have hne : ∀ d, isDigit d = false → c ≠ d := by
    rintro d hd rfl
    rw [hc] at hd
    cases hd
  rw [takeToken, if_neg (hne _ rfl), if_neg (hne _ rfl), if_neg (hne _ rfl), if_neg (hne _ rfl),
    if_neg (hne _ rfl), if_neg (hne _ rfl), if_neg (hne _ rfl), if_neg (hne _ rfl),
    if_neg (hne _ rfl), if_neg (hne _ rfl), if_neg (hne _ rfl), if_pos hc]

theorem isSpace_of_isDigit {c : Char} (hc : isDigit c = true) : isSpace (some c) = false := by
  have hne : ∀ d, isDigit d = false → (some c == some d) = false := by
    intro d hd
    rw [beq_eq_false_iff_ne]
    rintro ⟨⟩
    rw [hc] at hd
    cases hd
  rw [isSpace, hne _ rfl, hne _ rfl, hne _ rfl, hne _ rfl]
  rfl

/-- A written integer is the token of its value, unless what follows goes on with it. -/
theorem lexes_renderInteger (n : Int) {rest : List (Option Char)} (hrest : Ends rest)
    {tail : List Token} (h : Lexes rest tail) :
    Lexes ((renderInteger n).map some ++ rest) (.number (.ofInteger n) :: tail) := by
  unfold renderInteger Numeral.ofInteger
  by_cases hn : n < 0
  · rw [if_pos hn, decide_eq_true hn]
    refine lexes_of_takeToken rfl ?_ h
    show (takeNumeral true ((Nat.toDigits 10 n.natAbs).map some ++ rest)).map _ = _
    rw [takeNumeral_toDigits true n.natAbs hrest]
    rfl
  · rw [if_neg hn, decide_eq_false hn]
    have htake := takeNumeral_toDigits false n.natAbs hrest
    cases hdigits : Nat.toDigits 10 n.natAbs with
    | nil => exact absurd hdigits Nat.toDigits_ne_nil
    | cons c cs =>
        have hc : isDigit c = true :=
          isDigit_of_mem_toDigits (hdigits ▸ List.mem_cons_self : c ∈ Nat.toDigits 10 n.natAbs)
        rw [hdigits] at htake
        refine lexes_of_takeToken (isSpace_of_isDigit hc) ?_ h
        exact (takeToken_of_isDigit hc (cs.map some ++ rest)).trans (congrArg (Option.map _) htake)

/-! ## Values -/

namespace Value

mutual

/-- What a reader can tell of a written value. -/
def document : Value → Document
  | .null => .null
  | .bool b => .bool b
  | .integer n => .number (.ofInteger n)
  | .text s => .text (.sound s)
  | .array items => .array (documents items)
  | .object members => .object (namedDocuments members)

/-- What a reader can tell of each element. -/
def documents : List Value → List Document
  | [] => []
  | v :: rest => v.document :: documents rest

/-- What a reader can tell of each member. -/
def namedDocuments : List (String × Value) → List (Quoted × Document)
  | [] => []
  | (k, v) :: rest => (.sound k, v.document) :: namedDocuments rest

end

end Value

open Value Document

theorem separated_cons (separator s : List Char) (rest : List (List Char)) :
    separated separator (s :: rest) = s ++ rest.flatMap (separator ++ ·) := by
  induction rest generalizing s with
  | nil => exact (List.append_nil s).symm
  | cons t rest ih =>
      rw [separated, ih, List.flatMap_cons, List.append_assoc, List.append_assoc]
      exact nofun

/-- What follows a value within brackets does not go on with a numeral. -/
theorem ends_of_mem {c : Char} (hc : c ∈ [',', ']', '\x7d']) (rest : List (Option Char)) :
    Ends (some c :: rest) := by
  rintro _ _ ⟨⟩
  simp only [List.mem_cons, List.not_mem_nil, or_false] at hc
  rcases hc with rfl | rfl | rfl
  · decide
  · decide
  · decide

theorem ends_nil : Ends [] := nofun

/-- What follows the elements of an array, or what follows its members. -/
theorem ends_flatMap (texts : List (List Char)) {c : Char} (hc : c ∈ [',', ']', '\x7d'])
    (rest : List (Option Char)) :
    Ends ((texts.flatMap ([','] ++ ·)).map some ++ some c :: rest) := by
  cases texts with
  | nil => exact ends_of_mem hc rest
  | cons s texts => exact ends_of_mem (by decide) _

mutual

/-- **A written value** is the tokens of its document, unless what follows goes on with it. -/
theorem lexes_renderChars (v : Value) {rest : List (Option Char)} (hrest : Ends rest)
    {tail : List Token} (h : Lexes rest tail) :
    Lexes (v.renderChars.map some ++ rest) (v.document.tokens ++ tail) := by
  match v with
  | .null => exact lexes_of_takeToken rfl rfl h
  | .bool true => exact lexes_of_takeToken rfl rfl h
  | .bool false => exact lexes_of_takeToken rfl rfl h
  | .integer n => exact lexes_renderInteger n hrest h
  | .text s => exact lexes_renderText s h
  | .array [] => exact .token rfl rfl (by simp) (.token rfl rfl (Nat.le_refl _) h)
  | .array (v :: items) =>
      have hvalue := lexes_renderChars v (ends_flatMap _ (by decide) _) (lexes_renderItems items h)
      rw [renderChars, renderItems, separated_cons, document, documents, Document.tokens]
      simpa using Lexes.token (c := '[') rfl rfl (Nat.le_refl _) hvalue
  | .object [] => exact .token rfl rfl (by simp) (.token rfl rfl (Nat.le_refl _) h)
  | .object ((k, v) :: members) =>
      have hvalue := lexes_renderChars v (ends_flatMap _ (by decide) _)
        (lexes_renderMembers members h)
      have hmember := lexes_renderText k (.token (c := ':') rfl rfl (Nat.le_refl _) hvalue)
      rw [renderChars, renderMembers, separated_cons, document, namedDocuments, Document.tokens]
      simpa using Lexes.token (c := '\x7b') rfl rfl (Nat.le_refl _) hmember

/-- What follows the first item of a written array. -/
theorem lexes_renderItems (items : List Value) {rest : List (Option Char)}
    {tail : List Token} (h : Lexes rest tail) :
    Lexes (((renderItems items).flatMap ([','] ++ ·)).map some ++ some ']' :: rest)
      (itemsAfter (documents items) ++ tail) := by
  match items with
  | [] => exact .token rfl rfl (Nat.le_refl _) h
  | v :: items =>
      have hvalue := lexes_renderChars v (ends_flatMap _ (by decide) _) (lexes_renderItems items h)
      rw [renderItems, documents, itemsAfter]
      simpa using Lexes.token (c := ',') rfl rfl (Nat.le_refl _) hvalue

/-- What follows the first member of a written object. -/
theorem lexes_renderMembers (members : List (String × Value)) {rest : List (Option Char)}
    {tail : List Token} (h : Lexes rest tail) :
    Lexes (((renderMembers members).flatMap ([','] ++ ·)).map some ++ some '\x7d' :: rest)
      (membersAfter (namedDocuments members) ++ tail) := by
  match members with
  | [] => exact .token rfl rfl (Nat.le_refl _) h
  | (k, v) :: members =>
      have hvalue := lexes_renderChars v (ends_flatMap _ (by decide) _)
        (lexes_renderMembers members h)
      have hmember := lexes_renderText k (.token (c := ':') rfl rfl (Nat.le_refl _) hvalue)
      rw [renderMembers, namedDocuments, membersAfter]
      simpa using Lexes.token (c := ',') rfl rfl (Nat.le_refl _) hmember

end

/-- **The tokens of a written value** are those of its document. -/
theorem tokensOf_render (v : Value) : tokensOf v.render = v.document.tokens := by
  have h := tokens_of_lexes (lexes_renderChars v ends_nil .done)
  rwa [List.append_nil, List.append_nil, ← String.toList_ofList (l := v.renderChars)] at h

end Gatehouse.Json
