/-
A read at any cursor. A read searches for a NUL and cuts the record out, and
the two count a negative place from the end on their own; they agree where
that is (`Bytes.find_clip`, `Bytes.slice_clip`), so the read at a cursor is
one at a place in the log (`nextRecord_eq`). What stands there is told
without a search (`RecordAt`).
-/
import RequestLog.LogFile
import RequestLog.Proofs.Pieces

namespace RequestLog

namespace Bytes

theorem clip_clip (size : Nat) (i : Int) : clip size (clip size i) = clip size i := clip_ofNat (clip_le size i)

theorem find_clip (bs pattern : Bytes) (start : Int) :
    bs.find pattern (clip bs.length start) = bs.find pattern start := by
  rw [find, find, clip_clip]

theorem slice_clip (bs : Bytes) (start : Int) (stop : Option Int) :
    bs.slice (.some (clip bs.length start)) stop = bs.slice (.some start) stop := by
  simp only [slice, clip_clip]

end Bytes

namespace Scan

/-! ## Where a read begins -/

/-- The place at which the read at a cursor begins: at the front for a cursor at or past the end, and
otherwise at the cursor. A negative one counts from the end, and stops at the front. -/
def startOf (size : Nat) (cursor : Int) : Nat :=
  if (size : Int) ≤ cursor then 0
  else if cursor < 0 then (max 0 (size + cursor)).toNat
  else cursor.toNat

theorem startOf_lt {size : Nat} (h : 0 < size) (cursor : Int) : startOf size cursor < size := by
  unfold startOf
  split
  · exact h
  · split <;> omega

theorem startOf_eq_clip {size : Nat} {cursor : Int} (h : ¬ (size : Int) ≤ cursor) :
    startOf size cursor = Bytes.clip size cursor := by
  rw [startOf, if_neg h, Bytes.clip]
  split <;> omega

theorem readAt_clip (log : Bytes) (start : Int) (w : Bool) :
    readAt log (Bytes.clip log.length start) w = readAt log start w := by
  simp only [readAt, Bytes.find_clip, Bytes.slice_clip]

/-- The read at a cursor is one at a place in the log. -/
theorem nextRecord_eq (log : Bytes) (cursor : Int) :
    nextRecord log cursor = readAt log (startOf log.length cursor) (decide ((log.length : Int) ≤ cursor)) := by
  unfold nextRecord
  split
  · rename_i hend
    rw [startOf, if_pos hend, decide_eq_true hend]
    rfl
  · rename_i hin
    rw [startOf_eq_clip hin, readAt_clip, decide_eq_false hin]

/-! ## What a read gives -/

/-- A read gives the record at a place: bytes without a NUL that stand there, up to a NUL that the cursor
is set behind, or up to the end. -/
structure RecordAt (log : Bytes) (start : Nat) (r : Read) : Prop where
  clean : terminator ∉ r.data
  data : (log.drop start).take r.data.length = r.data
  ended : (start + r.data.length < log.length ∧ log[start + r.data.length]? = .some terminator ∧
      r.cursor = start + r.data.length + 1) ∨
    (start + r.data.length = log.length ∧ r.cursor = log.length)

theorem readAt_recordAt {log : Bytes} {start : Nat} (h : start ≤ log.length) (w : Bool) :
    RecordAt log start (readAt log start w) := by
  -- a record ends in one of two ways: at a NUL ahead of the place, or, if none is there, with the log
  by_cases hmem : terminator ∈ log.drop start
  · obtain ⟨p, rest, hdrop, hp⟩ := List.eq_append_cons_of_mem hmem
    have hget : log[start + p.length]? = .some terminator := by
      rw [← List.getElem?_drop, hdrop]
      simp
    have hlt : start + p.length < log.length := (List.getElem?_eq_some_iff.1 hget).1
    rw [readAt_terminated hdrop hp]
    exact ⟨hp, by rw [hdrop, List.take_left], .inl ⟨hlt, hget, rfl⟩⟩
  · have hlength : start + (log.drop start).length = log.length := by rw [List.length_drop]; omega
    rw [readAt_unterminated rfl hmem h]
    exact ⟨hmem, List.take_length, .inr ⟨hlength, rfl⟩⟩

end Scan

namespace LogFile

variable {l : LogFile} {c : Int}

theorem isPlace_iff {size : Nat} {i : Int} :
    isPlace size i = true ↔ (-placeBound ≤ i ∧ i < placeBound) ∨ (0 ≤ i ∧ i < size) := by
  simp only [isPlace, Bool.or_eq_true, Bool.and_eq_true, decide_eq_true_eq]

theorem bytes_eq (hopen : l.closed = false) : l.bytes = .ok l.content := by
  simp only [bytes, hopen, Bool.false_eq_true, if_false]

/-- The read at a place is that of the content. -/
theorem readAt_ok (hopen : l.closed = false) {start : Int} (h : isPlace l.content.length start = true) (w : Bool) :
    l.readAt start w = .ok (Scan.readAt l.content start w) := by
  have hfind : l.find [terminator] start = .ok (l.content.find [terminator] start) := by
    simp only [find, bytes_eq hopen, Except.bind, h, if_true]
  simp only [readAt, size, slice, hfind, bytes_eq hopen, Except.map, bind, Except.bind, pure, Except.pure, Scan.readAt]
  cases l.content.find [terminator] start <;> rfl

/-- A search that is refused is the end of a read. -/
theorem readAt_refused (hopen : l.closed = false) {start : Int} (h : isPlace l.content.length start = false)
    (w : Bool) : l.readAt start w = .error .startTooLarge := by
  simp [readAt, size, find, bytes_eq hopen, Except.map, bind, Except.bind, h]

theorem next_eq (hopen : l.closed = false) (c : Int) :
    l.next c = if (l.content.length : Int) ≤ c then l.readAt 0 true else l.readAt c false := by
  simp only [next, size, bytes_eq hopen, Except.map, bind, Except.bind]

theorem next_ok (hopen : l.closed = false) (h : -placeBound ≤ c) : l.next c = .ok (Scan.nextRecord l.content c) := by
  rw [next_eq hopen, Scan.nextRecord]
  split
  · exact readAt_ok hopen rfl true
  · have hpos : 0 < placeBound := by decide
    -- a cursor ahead of the end is a place in the file or below its front
    refine readAt_ok hopen ?_ false
    rw [isPlace_iff]
    omega

theorem next_refused (hopen : l.closed = false) (h : c < -placeBound) : l.next c = .error .startTooLarge := by
  have hpos : 0 < placeBound := by decide
  rw [next_eq hopen, if_neg (by omega)]
  refine readAt_refused hopen (Bool.eq_false_iff.2 ?_) false
  rw [Ne, isPlace_iff]
  omega

/-- **A read at any cursor gives the record there and moves forward.** It wraps just if the cursor is at or
past the end. The record is what stands between the place at which the read begins and the next NUL or the
end. The cursor it leaves is past that place, in the log or at its end, and stands between records wherever
the read began. Only a cursor too far below the front to be a place in a file is refused. -/
theorem next_reads_forward (l : LogFile) (hopen : l.closed = false) (hne : l.content ≠ []) (c : Int) :
    let size := l.content.length
    let start := Scan.startOf size c
    (-placeBound ≤ c → ∃ r, l.next c = .ok r ∧ (r.wrapped = true ↔ (size : Int) ≤ c) ∧
      Scan.RecordAt l.content start r ∧ start < r.cursor ∧ r.cursor ≤ size ∧
      Scan.AtBoundary l.content r.cursor) ∧
    (c < -placeBound → l.next c = .error .startTooLarge) := by
  intro size start
  refine ⟨?_, next_refused hopen⟩
  intro hplace
  have hstart : start < size := Scan.startOf_lt (List.length_pos_iff.2 hne) c
  refine ⟨_, next_ok hopen hplace, ?_⟩
  have hboundary := Scan.nextRecord_atBoundary l.content c
  rw [Scan.nextRecord_eq] at hboundary ⊢
  refine ⟨?_, Scan.readAt_recordAt (Nat.le_of_lt hstart) _, Scan.lt_readAt_cursor hstart _,
    Scan.readAt_cursor_le .., hboundary⟩
  rw [Scan.readAt_wrapped, decide_eq_true_iff]

/-- From the back, where the last record has no NUL, and from past the end. -/
theorem next_reads_forward_fromBack :
    let l : LogFile := ⟨"log", [47, 97, 0, 98, 99], false⟩
    l.next (-1) = .ok ⟨[99], 5, false⟩ ∧ Scan.RecordAt l.content 4 ⟨[99], 5, false⟩ ∧
      l.next 6 = .ok ⟨[47, 97], 3, true⟩ ∧ Scan.RecordAt l.content 0 ⟨[47, 97], 3, true⟩ := by
  intro l
  have hback : l.next (-1) = .ok ⟨[99], 5, false⟩ := rfl
  have hpast : l.next 6 = .ok ⟨[47, 97], 3, true⟩ := rfl
  obtain ⟨r, hr, -, hrecord, -⟩ := (next_reads_forward l rfl (List.cons_ne_nil _ _) (-1)).1 (by decide)
  obtain ⟨r', hr', -, hrecord', -⟩ := (next_reads_forward l rfl (List.cons_ne_nil _ _) 6).1 (by decide)
  obtain rfl := Except.ok.inj (hback.symm.trans hr)
  obtain rfl := Except.ok.inj (hpast.symm.trans hr')
  exact ⟨hback, hrecord, hpast, hrecord'⟩

/-- A cursor below all places in a file does not count as one before the front: the search for the end of
the record refuses it, and nothing is read. -/
theorem next_refuses_far_below :
    let l : LogFile := ⟨"log", [47, 97, 0], false⟩
    l.closed = false ∧ l.content ≠ [] ∧ ¬ ∃ r, l.next (-0x8000000000000001) = .ok r := by
  intro l
  have hrefused : l.next (-0x8000000000000001) = .error .startTooLarge := next_refused rfl (by decide)
  refine ⟨rfl, List.cons_ne_nil _ _, ?_⟩
  rintro ⟨r, hr⟩
  rw [hrefused] at hr
  cases hr

end LogFile

end RequestLog
