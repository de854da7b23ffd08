/-
Logs put together again from their records. A log is its records with a NUL
between neighbours, and one more at the end if it ends in a NUL (`Cut`). The
records that a scan finds are the only ones of which that can be said
(`cut_iff`), so a scan loses nothing, and how many records there are and how
long they are together can be told from the log (`Cut.length`, `Cut.size`).
-/
import Mathlib.Algebra.Ring.Nat
import RequestLog.LogFile
import RequestLog.Proofs.Pieces

namespace RequestLog

namespace Scan

/-- What ends a log after its last record: a NUL, or nothing. -/
def ending (log : Bytes) : Bytes := if log.getLast? = .some terminator then [terminator] else []

/-- Records that a log is made of. Without the last condition an empty record could be added at the end of
a log that does not end in a NUL, and a log of a single NUL could be made of no record at all. -/
structure Cut (log : Bytes) (rs : List Bytes) : Prop where
  clean : ∀ r ∈ rs, terminator ∉ r
  joined : [terminator].intercalate rs ++ ending log = log
  last : ∃ r, rs.getLast? = .some r ∧ (log.getLast? ≠ .some terminator → r ≠ [])

variable {log : Bytes} {rs : List Bytes}

theorem ending_terminated (log : Bytes) : ending (log ++ [terminator]) = [terminator] := by
  rw [ending, if_pos List.getLast?_concat]

/-- A log that ends in a NUL is cut there too, before nothing. -/
theorem intercalate_concat_nil (h : rs ≠ []) :
    [terminator].intercalate (rs ++ [[]]) = [terminator].intercalate rs ++ [terminator] := by
  induction rs with
  | nil => exact absurd rfl h
  | cons r rs ih =>
    cases rs with
    | nil => simp
    | cons r' rs =>
      have hrest := ih (List.cons_ne_nil _ _)
      rw [List.cons_append] at hrest
      rw [List.cons_append, List.cons_append, List.intercalate_cons_cons, hrest, List.intercalate_cons_cons,
        List.append_assoc (r ++ [terminator])]

/-- Records with a NUL between neighbours have one NUL less than there are records. -/
theorem count_intercalate (h : ∀ r ∈ rs, terminator ∉ r) (hne : rs ≠ []) :
    ([terminator].intercalate rs).count terminator + 1 = rs.length := by
  induction rs with
  | nil => exact absurd rfl hne
  | cons r rs ih =>
    obtain ⟨hr, hrs⟩ := List.forall_mem_cons.1 h
    cases rs with
    | nil => simp [List.count_eq_zero_of_not_mem hr]
    | cons r' rs =>
      have hrest := ih hrs (List.cons_ne_nil _ _)
      rw [List.intercalate_cons_cons, List.count_append, List.count_append, List.count_eq_zero_of_not_mem hr,
        List.count_singleton_self, List.length_cons, ← hrest]
      omega

theorem length_intercalate (hne : rs ≠ []) :
    ([terminator].intercalate rs).length + 1 = (rs.map fun r => r.length + 1).sum := by
  induction rs with
  | nil => exact absurd rfl hne
  | cons r rs ih =>
    cases rs with
    | nil => simp
    | cons r' rs =>
      have hrest := ih (List.cons_ne_nil _ _)
      rw [List.intercalate_cons_cons, List.length_append, List.length_append, List.length_singleton, List.map_cons,
        List.sum_cons, ← hrest]
      omega

namespace Cut

theorem ne_nil (h : Cut log rs) : rs ≠ [] := by
  rintro rfl
  obtain ⟨r, hr, _⟩ := h.last
  cases hr

/-- **A log has no other records** than those that a scan finds. -/
theorem eq_pieces (h : Cut log rs) : rs = pieces log := by
  have hjoined := h.joined
  unfold ending at hjoined
  split at hjoined
  · have hcut : log.splitOn terminator = rs ++ [[]] := by
      rw [← hjoined, ← intercalate_concat_nil h.ne_nil]
      refine List.splitOn_intercalate terminator ?_ (List.concat_ne_nil _ _)
      simpa [or_imp, forall_and] using h.clean
    simp [pieces, hcut]
  · rename_i hend
    have hcut : log.splitOn terminator = rs := by
      rw [← hjoined, List.append_nil]
      exact List.splitOn_intercalate terminator h.clean h.ne_nil
    obtain ⟨r, hr, hne⟩ := h.last
    have hlast : rs.getLast? ≠ .some [] := fun hnil => hne hend (Option.some.inj (hr.symm.trans hnil))
    rw [pieces, hcut, if_neg hlast]

/-- There are as many records as there are NULs, and one more if the last record has none. -/
theorem length (h : Cut log rs) :
    rs.length = log.count terminator + if log.getLast? = .some terminator then 0 else 1 := by
  have hcount := congrArg (List.count terminator) h.joined
  have hrecords := count_intercalate h.clean h.ne_nil
  unfold ending at hcount
  rw [List.count_append] at hcount
  split at hcount
  · rename_i hend
    rw [if_pos hend, ← hcount, List.count_singleton_self]
    omega
  · rename_i hend
    rw [if_neg hend, ← hcount, List.count_nil]
    omega

/-- Records have all bytes of a log but their NULs. -/
theorem size (h : Cut log rs) :
    (rs.map fun r => r.length + 1).sum = log.length + if log.getLast? = .some terminator then 0 else 1 := by
  have hlength := congrArg List.length h.joined
  rw [← length_intercalate h.ne_nil]
  unfold ending at hlength
  rw [List.length_append] at hlength
  split at hlength
  · rename_i hend
    rw [if_pos hend, ← hlength, List.length_singleton]
  · rename_i hend
    rw [if_neg hend, ← hlength, List.length_nil]

end Cut

/-- Where nothing is left after a log has been cut at its NULs, the log ends in one. -/
theorem ends_of_splitOn (hne : log ≠ []) (h : (log.splitOn terminator).getLast? = .some []) :
    log.getLast? = .some terminator := by
  obtain ⟨rs, hcut⟩ := List.getLast?_eq_some_iff.1 h
  have hlog : [terminator].intercalate (rs ++ [[]]) = log := by rw [← hcut, List.intercalate_splitOn]
  by_cases hrs : rs = []
  · subst hrs
    exact absurd hlog.symm (by simpa using hne)
  · rw [← hlog, intercalate_concat_nil hrs, List.getLast?_concat]

/-- **The records that a scan finds make up the log.** -/
theorem cut_pieces (hne : log ≠ []) : Cut log (pieces log) := by
  by_cases hend : log.getLast? = .some terminator
  · obtain ⟨front, rfl⟩ := List.getLast?_eq_some_iff.1 hend
    have hpieces : pieces (front ++ [terminator]) = front.splitOn terminator := by
      rw [pieces_append_terminator, pieces_nil, List.append_nil]
    refine ⟨terminator_not_mem_pieces _, ?_, ?_⟩
    · rw [hpieces, List.intercalate_splitOn, ending_terminated]
    · rw [hpieces]
      exact ⟨_, List.getLast?_eq_some_getLast (List.splitOn_ne_nil _ _), fun hnot => absurd hend hnot⟩
  · have hlast := mt (ends_of_splitOn hne) hend
    have hpieces : pieces log = log.splitOn terminator := if_neg hlast
    refine ⟨terminator_not_mem_pieces log, ?_, ?_⟩
    · rw [hpieces, List.intercalate_splitOn, ending, if_neg hend, List.append_nil]
    · rw [hpieces]
      have hsome := List.getLast?_eq_some_getLast (List.splitOn_ne_nil terminator log)
      refine ⟨_, hsome, ?_⟩
      rintro - hnil
      exact hlast (hnil ▸ hsome)

theorem cut_iff (hne : log ≠ []) : Cut log rs ↔ rs = pieces log :=
  ⟨Cut.eq_pieces, fun h => h ▸ cut_pieces hne⟩

end Scan

namespace LogFile

/-- **A scan loses nothing.** The records of an open log hold no NUL, and they make up the log with a NUL
between neighbours and one more at the end if the log ends in one. There is only one way to cut a log up like
that. So it has as many records as NULs, and one more if it does not end in a NUL, and with a NUL for each
record they are as long as the log, or longer by the one that the last record lacks. -/
theorem records_lose_nothing (l : LogFile) (hopen : l.closed = false) (hne : l.content ≠ []) :
    ∃ rs, l.records = .ok rs ∧ (∀ rs', Scan.Cut l.content rs' ↔ rs' = rs) ∧
      rs.length = l.content.count terminator + (if l.content.getLast? = .some terminator then 0 else 1) ∧
      (rs.map fun r => r.length + 1).sum =
        l.content.length + (if l.content.getLast? = .some terminator then 0 else 1) := by
  have hcut := Scan.cut_pieces hne
  refine ⟨Scan.pieces l.content, ?_, fun rs' => Scan.cut_iff hne, hcut.length, hcut.size⟩
  rw [records, bytes, hopen, ← Scan.records_eq_pieces]
  rfl

/-- Two NULs next to each other, one at the front, and a record without one at the end. -/
theorem records_lose_nothing_unterminated :
    (⟨"log", [0, 97, 0, 0, 98], false⟩ : LogFile).records = .ok [[], [97], [], [98]] ∧
      Scan.Cut [0, 97, 0, 0, 98] [[], [97], [], [98]] := by
  obtain ⟨rs, hrecords, hcut, -, -⟩ := records_lose_nothing ⟨"log", [0, 97, 0, 0, 98], false⟩ rfl (List.cons_ne_nil _ _)
  have hrs : Scan.Cut [0, 97, 0, 0, 98] [[], [97], [], [98]] := by
    refine ⟨by decide, rfl, ⟨[98], rfl, ?_⟩⟩
    exact fun _ => List.cons_ne_nil _ _
  obtain rfl := (hcut _).1 hrs
  exact ⟨hrecords, hrs⟩

end LogFile

end RequestLog
