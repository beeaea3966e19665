import Gatehouse.Journal.Memory
import Gatehouse.Proofs.Journal.Document
import Gatehouse.Proofs.Sql.Meaning
import Gatehouse.Sql.Log

/-!
# Gatehouse.Proofs.Sql.Trimming — event logs in memory and in a database keep the same records

A log in memory drops the oldest records of a stream until there are few enough; a log that a
database keeps removes rows by their sequence numbers.  Both keep the same records
(`logs_keep_alike`), as long as the numbers are handed out to one stream without gaps.

What the database keeps is judged by what it gives back: the rows of the stream are asked for by a
statement (`storedRows`), and each row is read as JSON and then as a record (`storedRecords`).  So
the comparison is one of records, and a row that held anything else than its record would show.

The invariant is `Mirrors`: the rows of the stream stand for the records in memory, and their
numbers are consecutive up to the last one that was issued.  So a row has a number beyond a bound if
and only if it is among the last ones.  The two trims then agree by arithmetic: one counts what is
held, the other subtracts from the number just issued, and the difference is what has been removed
before.
-/

namespace Gatehouse.Sql

open Gatehouse.Time Layout

/-! ## Rows of the event log -/

/-- What a row of the event log stands for. -/
structure Line where
  record : Record
  seq : Nat
  time : Timestamp

/-- The entry of a row. -/
def Line.entry (stream : String) (l : Line) : Entry :=
  [("stream", .text stream), ("payload", .text (Log.payload l.record)),
   ("seq", .integer (l.seq : Nat)), ("appended_at", .ofTimestamp l.time)]

/-- The row that a record is given. -/
def newLine (t : Tables) (r : Record) (now : Timestamp) : Line := ⟨r, t.issued + 1, now⟩

/-- Of rows with consecutive numbers, those beyond a bound are the last ones. -/
theorem filter_eq_drop {ls : List Line} {first : Nat}
    (h : ls.map Line.seq = List.range' first ls.length) (bound : Nat) :
    (ls.filter fun l => !(l.seq ≤ bound)) = ls.drop (bound + 1 - first) := by
  induction ls generalizing first with
  | nil => rw [List.filter_nil, List.drop_nil]
  | cons l ls ih =>
      rw [List.map_cons, List.length_cons, List.range'_succ] at h
      obtain ⟨hl, hls⟩ := List.cons.inj h
      have hrest := ih hls
      by_cases hle : l.seq ≤ bound
      · have hsucc : bound + 1 - first = bound + 1 - (first + 1) + 1 := by omega
        rw [List.filter_cons_of_neg (by simp [hle]), hrest, hsucc, List.drop_succ_cons]
      · have hzero : bound + 1 - first = 0 := by omega
        have hzero' : bound + 1 - (first + 1) = 0 := by omega
        rw [List.filter_cons_of_pos (by simp [hle]), hrest, hzero, hzero']
        rfl

/-! ## The threshold -/

/-- The threshold of a trim lies below the number that was issued, and above zero; nothing on the
way to it leaves the signed words of 64 bits. -/
theorem trimBound_fits (maxLen : Nat) (seq : Int) :
    (0 ≤ min (maxLen : Int) Log.maxSequence ∧ min (maxLen : Int) Log.maxSequence < Word.bound 63) ∧
      ∀ b, Log.trimBound maxLen seq = some b → 0 < b ∧ b < seq := by
  have hmax : 0 ≤ Log.maxSequence ∧ Log.maxSequence < Word.bound 63 := by decide
  refine ⟨⟨by omega, by omega⟩, fun b hb => ?_⟩
  simp only [Log.trimBound] at hb
  split at hb
  · next hkept =>
    obtain rfl := Option.some.inj hb
    omega
  · cases hb

/-- The threshold for a number of the log: rows are removed only if more were issued than are to be
kept. -/
theorem trimBound_eq {maxLen seq : Nat} (hseq : seq < Word.bound 63) :
    Log.trimBound maxLen seq =
      if 0 < maxLen ∧ maxLen < seq then some ((seq - maxLen : Nat) : Int) else none := by
  have hmax : Log.maxSequence = (Word.bound 63 : Nat) - 1 := rfl
  simp only [Log.trimBound, hmax]
  split
  · next h =>
    have hkept : 0 < maxLen ∧ maxLen < seq := by omega
    rw [if_pos hkept]
    congr 1
    omega
  · next h =>
    have hkept : ¬(0 < maxLen ∧ maxLen < seq) := by omega
    rw [if_neg hkept]

/-! ## Statements of a log -/

/-- A database that accepts every row. -/
def accepting : Constraints := fun _ _ _ => none

/-- A row is added with the next number and gives it back. -/
theorem perform_insertStatement (now : Timestamp) (t : Tables) (stream : String) (r : Record) :
    Statement.perform accepting now [.text stream, .text (Log.payload r)] t Log.insertStatement =
      (.ok ⟨[[.integer (t.issued + 1 : Nat)]], 1⟩,
        t.add eventLog ((newLine t r now).entry stream)) := rfl

/-- A row is removed exactly if its number does not exceed the threshold. -/
theorem passes_trimStatement (stream : String) (bound : Nat) (l : Line) :
    passes [.equals "stream" 1, .atMost "seq" 2] [.text stream, .integer bound] (l.entry stream) =
      decide (l.seq ≤ bound) := by
  have hequals : (Condition.equals "stream" 1).holds [.text stream, .integer bound]
      (l.entry stream) = true := by
    show (decide (Value.text stream ≠ .null) && decide (Value.text stream = .text stream)) = true
    simp
  show ((Condition.equals "stream" 1).holds _ (l.entry stream) &&
    (decide ((l.seq : Int) ≤ bound) && true)) = _
  rw [hequals, Bool.true_and, Bool.and_true]
  exact decide_eq_decide.2 Int.ofNat_le

/-! ## Appends -/

/-- Whether the event log has some rows of a stream and no other, whose numbers are consecutive and
end with the last one that was issued. -/
structure Lines (stream : String) (t : Tables) (ls : List Line) : Prop where
  rows : t.rows eventLog = ls.map (Line.entry stream)
  numbers : ls.map Line.seq = List.range' (t.issued + 1 - ls.length) ls.length
  issued : ls.length ≤ t.issued

/-- The last rows, as many as are to be kept; all if that is zero. -/
def lastLines (maxLen : Nat) (ls : List Line) : List Line :=
  if maxLen = 0 then ls else ls.drop (ls.length - maxLen)

variable {stream : String} {t : Tables} {ls : List Line}

/-- With a new row the numbers are consecutive up to the new one. -/
theorem Lines.add (h : Lines stream t ls) (r : Record) (now : Timestamp) :
    Lines stream (t.add eventLog ((newLine t r now).entry stream)) (ls ++ [newLine t r now]) where
  rows := by
    show (t.put eventLog (t.rows eventLog ++ [_])).rows eventLog = _
    rw [Tables.rows_put, h.rows, List.map_append]
    rfl
  numbers := by
    have hissued := h.issued
    have hfirst : t.issued + 1 + 1 - (ls.length + 1) = t.issued + 1 - ls.length := by omega
    have hlast : t.issued + 1 - ls.length + 1 * ls.length = t.issued + 1 := by omega
    show (ls ++ [_]).map Line.seq = List.range' (t.issued + 1 + 1 - (ls ++ [_]).length) _
    rw [List.map_append, List.length_append, List.length_singleton, hfirst, List.range'_concat,
      hlast, h.numbers]
    rfl
  issued := by
    rw [List.length_append]
    exact Nat.succ_le_succ h.issued

/-- Without its first rows the numbers are consecutive still, and end where they did. -/
theorem Lines.drop (h : Lines stream t ls) (count : Nat) :
    Lines stream (t.put eventLog ((ls.drop count).map (Line.entry stream))) (ls.drop count) where
  rows := t.rows_put _ _
  numbers := by
    have hissued := h.issued
    rw [List.map_drop, h.numbers, List.drop_range', List.length_drop]
    show _ = List.range' (t.issued + 1 - (ls.length - count)) _
    rcases Nat.lt_or_ge ls.length count with hnone | hsome
    · rw [Nat.sub_eq_zero_of_le (Nat.le_of_lt hnone)]
      rfl
    · congr 1
      omega
  issued := by
    rw [List.length_drop]
    exact Nat.le_trans (Nat.sub_le _ _) h.issued

/-- Removing the rows up to the threshold leaves the last ones. -/
theorem run_trim (h : Lines stream t ls) (now : Timestamp) (maxLen : Nat) :
    (Log.trim stream (t.issued - maxLen : Nat)).run (answer accepting now) t =
      ((), t.put eventLog ((ls.drop (ls.length - maxLen)).map (Line.entry stream))) := by
  have hissued := h.issued
  have hcount : t.issued - maxLen + 1 - (t.issued + 1 - ls.length) = ls.length - maxLen := by omega
  have hperform : Statement.perform accepting now [.text stream, .integer (t.issued - maxLen : Nat)]
      t Log.trimStatement = _ :=
    perform_delete h.rows (passes_trimStatement stream (t.issued - maxLen))
  rw [filter_eq_drop h.numbers, hcount] at hperform
  rw [Log.trim, Program.bind_eq, Program.run_bind, run_execute (by decide), hperform]
  rfl

/-- An append adds a row, and leaves the last ones of a stream. -/
theorem run_append (h : Lines stream t ls) (now : Timestamp) (r : Record) (maxLen : Nat)
    (hissued : t.issued + 1 < Word.bound 63) :
    ∃ t', (Log.append stream r maxLen).run (answer accepting now) t = (.ok (), t') ∧
      Lines stream t' (lastLines maxLen (ls ++ [newLine t r now])) ∧ t'.issued = t.issued + 1 := by
  have hadded := h.add r now
  have hinsert := run_one_integer (by decide) (perform_insertStatement now t stream r)
  rw [Log.append, Program.bind_eq, Program.run_bind, hinsert]
  dsimp only
  rw [trimBound_eq hissued]
  by_cases hkept : 0 < maxLen ∧ maxLen < t.issued + 1
  · have htrim : (Log.trim stream (t.issued + 1 - maxLen : Nat)).run (answer accepting now) _ = _ :=
      run_trim hadded now maxLen
    rw [if_pos hkept, lastLines, if_neg (Nat.ne_of_gt hkept.1)]
    refine ⟨_, ?_, hadded.drop _, rfl⟩
    dsimp only
    rw [Program.bind_eq, Program.run_bind, htrim]
    rfl
  -- no row is removed, because no more were issued than are to be kept
  · have hall : lastLines maxLen (ls ++ [newLine t r now]) = ls ++ [newLine t r now] := by
      have hlength := h.issued
      have hnone : maxLen = 0 ∨ (ls ++ [newLine t r now]).length - maxLen = 0 := by
        rw [List.length_append, List.length_singleton]
        omega
      rcases hnone with hzero | hnone
      · exact if_pos hzero
      · rw [lastLines, hnone, List.drop_zero, ite_self]
    rw [if_neg hkept, hall]
    exact ⟨_, rfl, hadded, rfl⟩

/-! ## What is stored -/

/-- Asks for what a stream holds, in the order in which it was added. -/
def streamStatement : Statement := .select ["payload"] eventLog [.equals "stream" 1] ["seq"] none

/-- What the database gives back of a stream. -/
def storedRows (stream : String) (t : Tables) : Except DatabaseError (List Row) :=
  (performText accepting ⟨0, 0⟩ [.text stream] t streamStatement.render).1.map (·.rows)

/-- The database gives back the texts of the records, in the order of the numbers. -/
theorem Lines.storedRows_eq (h : Lines stream t ls) :
    storedRows stream t = .ok (ls.map fun l => [.text (Log.payload l.record)]) := by
  have hpasses : ∀ l, passes [.equals "stream" 1] [.text stream] (Line.entry stream l) = true := by
    intro l
    show (decide (Value.text stream ≠ .null) && decide (Value.text stream = .text stream) && true)
      = true
    simp
  have hle : ∀ l l' : Line, (Entry.compareBy (l.entry stream) (l'.entry stream) ["seq"]).isLE =
      (compare (l.seq : Int) (l'.seq : Int)).isLE := by
    intro l l'
    show ((compare (l.seq : Int) l'.seq).then .eq).isLE = _
    cases compare (l.seq : Int) l'.seq <;> rfl
  have hperform : Statement.perform accepting ⟨0, 0⟩ [.text stream] t streamStatement = _ :=
    perform_select none h.rows (by decide)
      (fun l => (rfl : _ = [Value.text (Log.payload l.record)])) hpasses hle
  have hsorted : ls.Pairwise fun l l' => (compare (l.seq : Int) (l'.seq : Int)).isLE = true := by
    have hnumbers : (ls.map Line.seq).Pairwise (· < ·) := h.numbers ▸ List.pairwise_lt_range'
    rw [List.pairwise_map] at hnumbers
    exact hnumbers.imp fun hlt => Std.isLE_compare.2 (Int.ofNat_le.2 (Nat.le_of_lt hlt))
  have hanswer : performText accepting ⟨0, 0⟩ [.text stream] t streamStatement.render = _ :=
    (answer_execute accepting ⟨0, 0⟩ (by decide) [.text stream] t).trans hperform
  -- the rows stand in the order of their numbers already, so nothing is sorted
  rw [storedRows, hanswer, List.filter_true, List.mergeSort_of_pairwise hsorted]
  rfl

/-- The record that a row of a stream spells out. -/
def rowRecord? : Row → Option Record
  | [.text payload] => Record.ofText? payload
  | _ => none

/-- The records that the database gives back of a stream, if every row spells out one. -/
def storedRecords (stream : String) (t : Tables) : Option (List Record) :=
  (storedRows stream t).toOption.bind (·.mapM rowRecord?)

/-- Each text that is given back spells out its record. -/
theorem Lines.storedRecords_eq (h : Lines stream t ls) :
    storedRecords stream t = some (ls.map Line.record) := by
  have hrows : ls.map (fun l => [Value.text (Log.payload l.record)]) =
      (ls.map Line.record).map fun r => [Value.text (Log.payload r)] := by
    rw [List.map_map]
    rfl
  rw [storedRecords, h.storedRows_eq, hrows]
  exact mapM_map_of_inverse fun r _ => r.ofText?_render

/-! ## Histories -/

/-- An append to a stream: a record, how many are to be kept, and the time of the database. -/
structure Addition where
  record : Record
  maxLen : Nat
  time : Timestamp

/-- An append to a log in memory. -/
def Addition.toMemory (stream : String) (a : Addition) (log : MemoryLog) :
    Except EventError Unit × MemoryLog :=
  MemoryLog.eventLog.append stream a.record a.maxLen log

/-- An append to a log that a database keeps. -/
def Addition.toDatabase (stream : String) (a : Addition) (t : Tables) :
    Except EventError Unit × Tables :=
  (Log.append stream a.record a.maxLen).run (answer accepting a.time) t

/-- The replies to appends, one after another, and the state after them. -/
def replies {σ : Type} (step : Addition → σ → Except EventError Unit × σ) :
    List Addition → σ → List (Except EventError Unit) × σ
  | [], s => ([], s)
  | a :: as, s =>
    let (reply, s) := step a s
    let (rest, s) := replies step as s
    (reply :: rest, s)

theorem replies_concat {σ : Type} (step : Addition → σ → Except EventError Unit × σ)
    (as : List Addition) (a : Addition) (s : σ) :
    (replies step (as ++ [a]) s).2 = (step a (replies step as s).2).2 := by
  induction as generalizing s with
  | nil => rfl
  | cons b as ih => exact ih (step b s).2

/-- Whether a log in memory and the event log of a database have the same records of a stream, and
the former takes appends. -/
structure Mirrors (stream : String) (log : MemoryLog) (t : Tables) : Prop where
  working : log.available = true ∧ log.failing = false
  lines : ∃ ls, Lines stream t ls ∧ ls.map Line.record = log.records stream

/-- Two empty logs have the same records of any stream. -/
theorem mirrors_empty (stream : String) : Mirrors stream .empty .empty where
  working := ⟨rfl, rfl⟩
  lines := ⟨[], ⟨rfl, rfl, Nat.le_refl _⟩, rfl⟩

/-- An append to a log in memory that takes appends. -/
theorem toMemory_eq {log : MemoryLog} (h : log.available = true ∧ log.failing = false)
    (stream : String) (a : Addition) :
    ∃ log', a.toMemory stream log = (.ok (), log') ∧
      (log'.available = true ∧ log'.failing = false) ∧
      log'.records stream = MemoryLog.trim a.maxLen (log.records stream ++ [a.record]) := by
  obtain ⟨streams, available, failing⟩ := log
  obtain ⟨rfl, rfl⟩ := h
  refine ⟨_, rfl, ⟨rfl, rfl⟩, ?_⟩
  rw [MemoryLog.records, Table.lookup_insert, if_pos rfl]
  rfl

/-- **One append.**  Both logs take it and hold the same records of the stream after it. -/
theorem Mirrors.append {stream : String} {log : MemoryLog} {t : Tables} (h : Mirrors stream log t)
    (hissued : t.issued + 1 < Word.bound 63) (a : Addition) :
    ∃ log' t', a.toMemory stream log = (.ok (), log') ∧ a.toDatabase stream t = (.ok (), t') ∧
      Mirrors stream log' t' ∧ t'.issued = t.issued + 1 := by
  obtain ⟨ls, hlines, hrecords⟩ := h.lines
  obtain ⟨log', hmemory, hworking, hafter⟩ := toMemory_eq h.working stream a
  obtain ⟨t', hdatabase, hlines', hissued'⟩ := run_append hlines a.time a.record a.maxLen hissued
  refine ⟨log', t', hmemory, hdatabase, ⟨hworking, _, hlines', ?_⟩, hissued'⟩
  rw [hafter, ← hrecords, MemoryLog.trim, lastLines]
  split
  · rw [List.map_append]
    rfl
  · rw [List.map_drop, List.map_append, List.length_append, List.length_append, List.length_map]
    rfl

/-- **Many appends.**  Both logs take all of them, one after another, and hold the same records of
the stream after them, as long as there are numbers enough. -/
theorem Mirrors.replies {stream : String} (as : List Addition) {log : MemoryLog} {t : Tables}
    (h : Mirrors stream log t) (hissued : t.issued + as.length < Word.bound 63) :
    (∀ reply ∈ (replies (Addition.toMemory stream) as log).1, reply = .ok ()) ∧
      (∀ reply ∈ (replies (Addition.toDatabase stream) as t).1, reply = .ok ()) ∧
      Mirrors stream (replies (Addition.toMemory stream) as log).2
        (replies (Addition.toDatabase stream) as t).2 := by
  induction as generalizing log t with
  | nil => exact ⟨nofun, nofun, h⟩
  | cons a as ih =>
      rw [List.length_cons] at hissued
      obtain ⟨log', t', hmemory, hdatabase, hmirrors, hissued'⟩ := h.append (by omega) a
      obtain ⟨hmemories, hdatabases, hafter⟩ := ih hmirrors (by omega)
      simp only [Sql.replies, hmemory, hdatabase]
      exact ⟨List.forall_mem_cons.2 ⟨rfl, hmemories⟩, List.forall_mem_cons.2 ⟨rfl, hdatabases⟩,
        hafter⟩

/-- What is kept after one more record are the last ones, and the new one is the last of them. -/
theorem trim_concat (maxLen : Nat) (rs : List Record) (r : Record) :
    let kept := if maxLen = 0 then rs.length + 1 else min (rs.length + 1) maxLen
    MemoryLog.trim maxLen (rs ++ [r]) = (rs ++ [r]).drop (rs.length + 1 - kept) ∧
      (MemoryLog.trim maxLen (rs ++ [r])).length = kept ∧
      (MemoryLog.trim maxLen (rs ++ [r])).getLast? = some r := by
  intro kept
  have hkept : 0 < kept ∧ kept ≤ rs.length + 1 := by
    unfold kept
    split <;> omega
  have hlength : (rs ++ [r]).length = rs.length + 1 := by
    rw [List.length_append, List.length_singleton]
  have htrim : MemoryLog.trim maxLen (rs ++ [r]) = (rs ++ [r]).drop (rs.length + 1 - kept) := by
    unfold MemoryLog.trim kept
    split
    · rw [Nat.sub_self, List.drop_zero]
    · rw [hlength]
      congr 1
      omega
  refine ⟨htrim, ?_, ?_⟩
  · rw [htrim, List.length_drop, hlength]
    omega
  · rw [htrim, List.getLast?_drop, hlength, if_neg (by omega), List.getLast?_concat]

/-- **Both logs keep the same records.**  After any appends to one stream, each with any number of
records to keep, and as long as the numbers of the rows fit into a signed word of 64 bits, a
database holds the JSON of the records of a log in memory, in their order, and these records are
what its rows spell out.  Each append is taken, and leaves the new record at the end of the last
ones, as many as are to be kept.  The threshold of a trim fits into the word as well, whatever the
number of the row and the number of records to keep. -/
theorem logs_keep_alike (stream : String) (as : List Addition)
    (hlength : as.length < Word.bound 63) :
    let memory := replies (Addition.toMemory stream) as .empty
    let stored := replies (Addition.toDatabase stream) as .empty
    ((∀ reply ∈ memory.1, reply = .ok ()) ∧ ∀ reply ∈ stored.1, reply = .ok ()) ∧
    storedRows stream stored.2 =
      .ok ((memory.2.records stream).map fun r => [.text (Log.payload r)]) ∧
    storedRecords stream stored.2 = some (memory.2.records stream) ∧
    (∀ before a, as = before ++ [a] →
      let held := (replies (Addition.toMemory stream) before .empty).2.records stream
      let kept := if a.maxLen = 0 then held.length + 1 else min (held.length + 1) a.maxLen
      memory.2.records stream = (held ++ [a.record]).drop (held.length + 1 - kept) ∧
        (memory.2.records stream).length = kept ∧
        (memory.2.records stream).getLast? = some a.record) ∧
    ∀ (maxLen : Nat) (seq : Int), seq < Word.bound 63 →
      (0 ≤ min (maxLen : Int) Log.maxSequence ∧
        min (maxLen : Int) Log.maxSequence < Word.bound 63) ∧
      ∀ b, Log.trimBound maxLen seq = some b → 0 < b ∧ b < Word.bound 63 := by
  have hissued : Tables.empty.issued + as.length < Word.bound 63 := by
    rwa [Tables.empty, Nat.zero_add]
  intro memory stored
  obtain ⟨hmemory, hstored, hmirrors⟩ := (mirrors_empty stream).replies as hissued
  obtain ⟨ls, hlines, hrecords⟩ := hmirrors.lines
  refine ⟨⟨hmemory, hstored⟩, ?_, ?_, ?_, ?_⟩
  · rw [hlines.storedRows_eq, ← hrecords, List.map_map]
    rfl
  · rw [hlines.storedRecords_eq, hrecords]
  · rintro before a rfl
    have hbefore : Tables.empty.issued + before.length < Word.bound 63 := by
      rw [List.length_append] at hissued
      omega
    obtain ⟨-, -, hworking, -⟩ := (mirrors_empty stream).replies before hbefore
    obtain ⟨log', hlog', -, hafter⟩ := toMemory_eq hworking stream a
    have hlast : memory.2.records stream = MemoryLog.trim a.maxLen
        ((replies (Addition.toMemory stream) before .empty).2.records stream ++ [a.record]) := by
      rw [← hafter]
      show (replies (Addition.toMemory stream) (before ++ [a]) .empty).2.records stream = _
      rw [replies_concat, hlog']
    rw [hlast]
    exact trim_concat _ _ _
  · intro maxLen seq hseq
    obtain ⟨hkept, hbound⟩ := trimBound_fits maxLen seq
    exact ⟨hkept, fun b hb => ⟨(hbound b hb).1, Int.lt_trans (hbound b hb).2 hseq⟩⟩

/-- Three appends, of which the second trims and the third is to keep more records than any number
of a row.  The last two records are what the rows spell out then. -/
theorem three_appends_kept_alike :
    let record (n : String) : Record := (∅ : Table String String).insert "n" n
    let as : List Addition := [⟨record "1", 0, ⟨0, 0⟩⟩, ⟨record "2", 1, ⟨1, 0⟩⟩,
      ⟨record "3", Word.bound 64 - 1, ⟨2, 0⟩⟩]
    storedRows "audit" (replies (Addition.toDatabase "audit") as .empty).2 =
      .ok (((replies (Addition.toMemory "audit") as .empty).2.records "audit").map
        fun r => [.text (Log.payload r)]) ∧
    storedRecords "audit" (replies (Addition.toDatabase "audit") as .empty).2 =
      some [record "2", record "3"] := by
  intro record as
  obtain ⟨-, hrows, hrecords, -⟩ := logs_keep_alike "audit" as (by decide)
  exact ⟨hrows, hrecords.trans (congrArg some (by decide))⟩

end Gatehouse.Sql
