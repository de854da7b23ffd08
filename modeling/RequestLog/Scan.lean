/-
The scan of a log. A log is records one after another, each ended by a NUL;
what follows the last NUL is a record too unless it is empty. A cursor is a
place in the log, and a read at or past the end wraps to the front.

`nextRecord` reads at a cursor, `records` reads all in order, and `seek`
reads until a record has a target or the scan has wrapped twice.
-/
import RequestLog.Record

namespace RequestLog.Scan

/-- A record that was read, the cursor after it, and whether the scan wrapped to read it. -/
structure Read where
  data : Bytes
  cursor : Nat
  wrapped : Bool
  deriving Repr, DecidableEq

/-- Reads the record at a place in the log: up to the next NUL, or up to the end. -/
def readAt (log : Bytes) (start : Int) (wrapped : Bool) : Read :=
  match log.find [terminator] start with
  | .none => ⟨log.slice (.some start) (.some log.length), log.length, wrapped⟩
  | .some stop => ⟨log.slice (.some start) (.some stop), stop + 1, wrapped⟩

/-- Reads the record at a cursor. A negative cursor counts from the end. -/
def nextRecord (log : Bytes) (cursor : Int) : Read :=
  if (log.length : Int) ≤ cursor then readAt log 0 true else readAt log cursor false

theorem readAt_cursor_le (log : Bytes) (start : Int) (w : Bool) :
    (readAt log start w).cursor ≤ log.length := by
  unfold readAt
  split
  · exact Nat.le_refl _
  · rename_i stop h
    have := (Bytes.find_bounds h).2
    simp only; omega

theorem nextRecord_cursor_le (log : Bytes) (cursor : Int) : (nextRecord log cursor).cursor ≤ log.length := by
  unfold nextRecord
  split <;> exact readAt_cursor_le ..

theorem lt_readAt_cursor {log : Bytes} {start : Nat} (h : start < log.length) (w : Bool) :
    start < (readAt log start w).cursor := by
  unfold readAt
  split
  · exact h
  · rename_i stop hs
    have := (Bytes.find_bounds hs).1
    rw [Bytes.clip_ofNat (Nat.le_of_lt h)] at this
    simp only; omega

/-- A read inside the log moves forward. -/
theorem lt_nextRecord_cursor {log : Bytes} {cursor : Nat} (h : cursor < log.length) :
    cursor < (nextRecord log cursor).cursor := by
  have hc : ¬ (log.length : Int) ≤ (cursor : Int) := by omega
  rw [nextRecord, if_neg hc]
  exact lt_readAt_cursor h false

/-- The records from a cursor to the end. -/
def recordsFrom (log : Bytes) (cursor : Nat) : List Bytes :=
  if cursor < log.length then
    (nextRecord log cursor).data :: recordsFrom log (nextRecord log cursor).cursor
  else []
termination_by log.length - cursor
decreasing_by
  rename_i h
  have := lt_nextRecord_cursor h
  omega

/-- All records of a log, empty ones included. -/
def records (log : Bytes) : List Bytes := recordsFrom log 0

/-! ## Seeking a target -/

/-- Where a search ended: its cursor, how often it went on from the front, how many records it read,
and the record with a target if it found one. -/
structure Sought where
  cursor : Nat
  wraps : Nat
  reads : Nat
  found : Option Record
  deriving Repr, DecidableEq

/-- Reads on from a cursor until a record has a target. A search that has wrapped once gives up when
it comes to the end again. -/
def seek (log : Bytes) (embedded : Bool) (cursor : Nat) (wrapped : Bool) : Sought :=
  let r := nextRecord log cursor
  if r.wrapped && wrapped then ⟨r.cursor, 0, 1, .none⟩
  else
    let record := Record.split embedded r.data
    if record.target.isEmpty then
      let s := seek log embedded r.cursor (wrapped || r.wrapped)
      { s with wraps := s.wraps + r.wrapped.toNat, reads := s.reads + 1 }
    else ⟨r.cursor, r.wrapped.toNat, 1, .some record⟩
termination_by (if wrapped then 0 else log.length + 1) + (log.length - cursor)
decreasing_by
  rename_i hw _
  have hle := nextRecord_cursor_le log cursor
  by_cases h : cursor < log.length
  · have := lt_nextRecord_cursor h
    have hr : (nextRecord log cursor).wrapped = false := by
      have hc : ¬ (log.length : Int) ≤ (cursor : Int) := by omega
      rw [nextRecord, if_neg hc, readAt]
      split <;> rfl
    rw [hr, Bool.or_false]
    omega
  · have hr : (nextRecord log cursor).wrapped = true := by
      have hc : (log.length : Int) ≤ (cursor : Int) := by omega
      rw [nextRecord, if_pos hc, readAt]
      split <;> rfl
    rw [hr, Bool.true_and, Bool.not_eq_true] at hw
    rw [hr, hw]
    simp only [Bool.or_true, if_true, Bool.false_eq_true, if_false]
    omega

end RequestLog.Scan
