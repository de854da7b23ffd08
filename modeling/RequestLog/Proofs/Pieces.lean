/-
The records of a log, without a cursor: `pieces`, the log cut at its NULs.
Reading on from a cursor gives the pieces of what is ahead of it
(`recordsFrom_eq_pieces`), and a cursor that a read leaves behind stands
between records (`nextRecord_atBoundary`), where the pieces behind it and
those ahead of it are the pieces of the log (`AtBoundary.pieces_eq`).
-/
import RequestLog.Scan

namespace RequestLog

namespace Bytes

theorem indexFrom_append {b : UInt8} {p : Bytes} (hp : b ∉ p) (rest : Bytes) (i : Nat) :
    indexFrom [b] (p ++ b :: rest) i = .some (i + p.length) := by
  induction p generalizing i with
  | nil => simp [indexFrom, List.isPrefixOf]
  | cons c p ih =>
    simp only [List.mem_cons, not_or] at hp
    have hc : (b == c) = false := by simpa using hp.1
    simp only [List.cons_append, indexFrom, List.isPrefixOf, hc, Bool.false_and, Bool.false_eq_true,
      if_false]
    rw [ih hp.2, List.length_cons]
    congr 1; omega

theorem indexFrom_eq_none {b : UInt8} {p : Bytes} (hp : b ∉ p) (i : Nat) : indexFrom [b] p i = .none := by
  induction p generalizing i with
  | nil => rfl
  | cons c p ih =>
    simp only [List.mem_cons, not_or] at hp
    have hc : (b == c) = false := by simpa using hp.1
    simp only [indexFrom, List.isPrefixOf, hc, Bool.false_and, Bool.false_eq_true, if_false]
    exact ih hp.2 _

theorem getElem?_of_indexFrom {b : UInt8} {bs : Bytes} {i k : Nat} (h : indexFrom [b] bs i = .some k) :
    bs[k - i]? = .some b := by
  induction bs generalizing i with
  | nil => simp [indexFrom] at h
  | cons c bs ih =>
    simp only [indexFrom] at h
    split at h
    · rename_i hc
      simp only [Option.some.injEq] at h
      subst h
      simp only [List.isPrefixOf, Bool.and_true, beq_iff_eq] at hc
      simp [hc]
    · have hk := indexFrom_bounds h
      have := ih h
      rwa [show k - i = k - (i + 1) + 1 by omega, List.getElem?_cons_succ]

/-- A search ends at a byte that it looks for. -/
theorem getElem?_of_find {b : UInt8} {bs : Bytes} {start : Int} {k : Nat} (h : bs.find [b] start = .some k) :
    bs[k]? = .some b := by
  have hk := (find_bounds h).1
  have := getElem?_of_indexFrom h
  rwa [List.getElem?_drop, Nat.add_sub_cancel' hk] at this

end Bytes

namespace Scan

/-! ## Pieces -/

/-- A log cut at its NULs. What follows the last NUL is a piece only if it is not empty. -/
def pieces (log : Bytes) : List Bytes :=
  let cut := log.splitOn terminator
  if cut.getLast? = .some [] then cut.dropLast else cut

theorem pieces_nil : pieces [] = [] := rfl

theorem pieces_append_terminator (front rest : Bytes) :
    pieces (front ++ terminator :: rest) = front.splitOn terminator ++ pieces rest := by
  have hne : rest.splitOn terminator ≠ [] := List.splitOn_ne_nil _ _
  have hlast := List.getLast?_eq_some_getLast hne
  simp only [pieces, List.splitOn_append_cons_self, List.getLast?_append, hlast, Option.some_or,
    List.dropLast_append_of_ne_nil hne]
  split <;> rfl

/-- A terminated record is the first piece. -/
theorem pieces_terminated {p : Bytes} (hp : terminator ∉ p) (rest : Bytes) :
    pieces (p ++ terminator :: rest) = p :: pieces rest := by
  rw [pieces_append_terminator, List.splitOn_eq_singleton hp]; rfl

/-- A record without a terminator is the only piece. -/
theorem pieces_unterminated {p : Bytes} (hp : terminator ∉ p) (hne : p ≠ []) : pieces p = [p] := by
  simp [pieces, List.splitOn_eq_singleton hp, hne]

theorem pieces_append (front rest : Bytes) :
    pieces (front ++ terminator :: rest) = pieces (front ++ [terminator]) ++ pieces rest := by
  rw [pieces_append_terminator, pieces_append_terminator, pieces_nil, List.append_nil]

/-- A log is empty, or a record without a terminator, or a terminated record and a log. -/
@[elab_as_elim]
theorem record_induction {motive : Bytes → Prop} (nil : motive [])
    (last : ∀ p, terminator ∉ p → p ≠ [] → motive p)
    (record : ∀ p rest, terminator ∉ p → motive rest → motive (p ++ terminator :: rest)) (log : Bytes) :
    motive log := by
  generalize hn : log.length = n
  induction n using Nat.strongRecOn generalizing log with
  | ind n ih =>
    by_cases h : terminator ∈ log
    · obtain ⟨p, rest, rfl, hp⟩ := List.eq_append_cons_of_mem h
      refine record p rest hp (ih rest.length ?_ rest rfl)
      simp only [List.length_append, List.length_cons] at hn; omega
    · by_cases hne : log = []
      · subst hne; exact nil
      · exact last log h hne

theorem terminator_not_mem_pieces (log : Bytes) : ∀ p ∈ pieces log, terminator ∉ p := by
  induction log using record_induction with
  | nil => simp [pieces_nil]
  | last p hp hne => simpa [pieces_unterminated hp hne] using hp
  | record p rest hp ih => simpa [pieces_terminated hp] using ⟨hp, ih⟩

/-! ## Reads -/

theorem readAt_wrapped (log : Bytes) (start : Int) (w : Bool) : (readAt log start w).wrapped = w := by
  unfold readAt; split <;> rfl

/-- A read of a terminated record. -/
theorem readAt_terminated {log p rest : Bytes} {cursor : Nat} (h : log.drop cursor = p ++ terminator :: rest)
    (hp : terminator ∉ p) (w : Bool) : readAt log cursor w = ⟨p, cursor + p.length + 1, w⟩ := by
  have hlen := congrArg List.length h
  simp only [List.length_drop, List.length_append, List.length_cons] at hlen
  have hfind : log.find [terminator] cursor = .some (cursor + p.length) := by
    rw [Bytes.find, Bytes.clip_ofNat (by omega), h, Bytes.indexFrom_append hp]
  have hslice : log.slice (.some cursor) (.some ↑(cursor + p.length)) = p := by
    rw [Bytes.slice, Bytes.upTo, Bytes.clip_ofNat (by omega), Bytes.clip_ofNat (by omega), List.drop_take,
      h, Nat.add_sub_cancel_left, List.take_left]
  rw [readAt, hfind]
  simp only [hslice]

/-- A read of a record without a terminator. -/
theorem readAt_unterminated {log p : Bytes} {cursor : Nat} (h : log.drop cursor = p) (hp : terminator ∉ p)
    (hle : cursor ≤ log.length) (w : Bool) : readAt log cursor w = ⟨p, log.length, w⟩ := by
  have hfind : log.find [terminator] cursor = .none := by
    rw [Bytes.find, Bytes.clip_ofNat hle, h, Bytes.indexFrom_eq_none hp]
  have hslice : log.slice (.some cursor) (.some ↑log.length) = p := by
    rw [Bytes.slice, Bytes.upTo, Bytes.clip_ofNat (Nat.le_refl _), Bytes.clip_ofNat hle, List.take_length, h]
  rw [readAt, hfind]
  simp only [hslice]

theorem lt_length_of_drop {log rest : Bytes} {cursor : Nat} (h : log.drop cursor = rest) (hne : rest ≠ []) :
    cursor < log.length :=
  Nat.lt_of_not_le fun hle => hne (h ▸ List.drop_eq_nil_of_le hle)

theorem nextRecord_inside {log : Bytes} {cursor : Nat} (h : cursor < log.length) :
    nextRecord log cursor = readAt log cursor false := by
  rw [nextRecord, if_neg (by omega)]

theorem nextRecord_end {log : Bytes} {cursor : Nat} (h : log.length ≤ cursor) :
    nextRecord log cursor = readAt log (0 : Nat) true := by
  rw [nextRecord, if_pos (by omega)]; rfl

/-- **Reading on from a cursor gives the pieces of what is ahead.** -/
theorem recordsFrom_eq_pieces (log : Bytes) (cursor : Nat) :
    recordsFrom log cursor = pieces (log.drop cursor) := by
  generalize hrest : log.drop cursor = rest
  induction rest using record_induction generalizing cursor with
  | nil =>
    have hle : log.length ≤ cursor := List.drop_eq_nil_iff.1 hrest
    rw [recordsFrom, if_neg (by omega)]; rfl
  | last p hp hne =>
    have hlt : cursor < log.length := lt_length_of_drop hrest hne
    rw [recordsFrom, if_pos hlt, nextRecord_inside hlt, readAt_unterminated hrest hp (by omega),
      pieces_unterminated hp hne, recordsFrom, if_neg (by simp)]
  | record p rest hp ih =>
    have hlt : cursor < log.length := lt_length_of_drop hrest (by simp)
    rw [recordsFrom, if_pos hlt, nextRecord_inside hlt, readAt_terminated hrest hp, pieces_terminated hp]
    congr 1
    exact ih _ (by rw [← List.drop_drop, ← List.drop_drop, hrest]; simp)

theorem records_eq_pieces (log : Bytes) : records log = pieces log := recordsFrom_eq_pieces log 0

/-! ## Places between records -/

/-- A cursor stands between records: at the front, at the end, or just after a NUL. -/
def AtBoundary (log : Bytes) (cursor : Nat) : Prop :=
  cursor ≤ log.length ∧ (cursor = 0 ∨ cursor = log.length ∨ log[cursor - 1]? = .some terminator)

theorem atBoundary_zero (log : Bytes) : AtBoundary log 0 := ⟨Nat.zero_le _, .inl rfl⟩

theorem readAt_atBoundary (log : Bytes) (start : Int) (w : Bool) : AtBoundary log (readAt log start w).cursor := by
  refine ⟨readAt_cursor_le log start w, .inr ?_⟩
  unfold readAt
  split
  · exact .inl rfl
  · rename_i stop h
    exact .inr (by simpa using Bytes.getElem?_of_find h)

/-- A read leaves its cursor between records, wherever it began. -/
theorem nextRecord_atBoundary (log : Bytes) (cursor : Int) : AtBoundary log (nextRecord log cursor).cursor := by
  unfold nextRecord
  split <;> exact readAt_atBoundary ..

/-- The pieces of a log are those behind a place between records and those ahead of it. -/
theorem AtBoundary.pieces_eq {log : Bytes} {cursor : Nat} (h : AtBoundary log cursor) :
    pieces log = pieces (log.take cursor) ++ pieces (log.drop cursor) := by
  rcases h with ⟨hle, rfl | rfl | hc⟩
  · simp [pieces_nil]
  · simp [pieces_nil]
  · obtain ⟨hlt, hget⟩ := List.getElem?_eq_some_iff.1 hc
    by_cases h0 : cursor = 0
    · subst h0; simp [pieces_nil]
    obtain ⟨c, rfl⟩ : ∃ c, cursor = c + 1 := ⟨cursor - 1, by omega⟩
    simp only [Nat.add_sub_cancel] at hlt hget
    have hlog : log = log.take c ++ terminator :: log.drop (c + 1) := by
      rw [← hget, ← List.drop_eq_getElem_cons hlt, List.take_append_drop]
    have htake : log.take (c + 1) = log.take c ++ [terminator] := by
      rw [List.take_succ_eq_append_getElem hlt, hget]
    rw [htake, ← pieces_append, ← hlog]

end Scan

end RequestLog
