/-
What a search for a record with a target finds, from a place between
records. It takes the first of those ahead (`seek_ahead`); where there is
none it goes on once from the front (`seek_again`); and in a log without any
it gives up when it comes to the end the second time (`seek_nothing`). Each
says where the search stops and how many records it has read.
-/
import RequestLog.Proofs.Pieces

namespace RequestLog.Scan

/-- The records among pieces that have a target. -/
def withTarget (embedded : Bool) (ps : List Bytes) : List Record :=
  (ps.map (Record.split embedded)).filter (!·.target.isEmpty)

/-- The records of a log that have a target, in order. -/
def targeted (embedded : Bool) (log : Bytes) : List Record := withTarget embedded (pieces log)

variable {log : Bytes} {e : Bool} {cursor : Nat}

theorem withTarget_append (ps qs : List Bytes) : withTarget e (ps ++ qs) = withTarget e ps ++ withTarget e qs := by
  simp [withTarget]

theorem withTarget_eq_nil_iff {ps : List Bytes} :
    withTarget e ps = [] ↔ ∀ p ∈ ps, (Record.split e p).target = [] := by
  simp [withTarget]

theorem AtBoundary.targeted_eq (h : AtBoundary log cursor) :
    targeted e log = targeted e (log.take cursor) ++ targeted e (log.drop cursor) := by
  rw [targeted, h.pieces_eq, withTarget_append]; rfl

/-- The first record with a target stands behind pieces without one. -/
theorem exists_of_withTarget_eq_cons {ps : List Bytes} {r : Record} {more : List Record}
    (h : withTarget e ps = r :: more) :
    ∃ dead p back, ps = dead ++ p :: back ∧ (∀ q ∈ dead, (Record.split e q).target = []) ∧
      Record.split e p = r ∧ r.target ≠ [] ∧ withTarget e back = more := by
  obtain ⟨l₁, l₂, hl, hdead, hr, hmore⟩ := List.filter_eq_cons_iff.1 h
  obtain ⟨dead, tail, rfl, rfl, htail⟩ := List.map_eq_append_iff.1 hl
  obtain ⟨p, back, rfl, rfl, rfl⟩ := List.map_eq_cons_iff.1 htail
  exact ⟨dead, p, back, rfl, by simpa using hdead, rfl, by simpa using hr, hmore⟩

/-! ## Single reads -/

theorem pieces_eq_nil_iff : pieces log = [] ↔ log = [] := by
  induction log using record_induction with
  | nil => simp [pieces_nil]
  | last p hp hne => simp [pieces_unterminated hp hne, hne]
  | record p rest hp ih => simp [pieces_terminated hp]

/-- A read takes the first piece of what is ahead. -/
theorem read_ahead {p : Bytes} {back : List Bytes} (h : pieces (log.drop cursor) = p :: back) :
    ∃ c, nextRecord log cursor = ⟨p, c, false⟩ ∧ AtBoundary log c ∧ pieces (log.drop c) = back := by
  have hlt : cursor < log.length := by
    refine lt_length_of_drop rfl ?_
    intro hnil
    rw [hnil] at h; cases h
  have hw : (nextRecord log cursor).wrapped = false := by rw [nextRecord_inside hlt, readAt_wrapped]
  rw [← recordsFrom_eq_pieces, recordsFrom, if_pos hlt, List.cons.injEq] at h
  obtain ⟨hp, hback⟩ := h
  refine ⟨(nextRecord log cursor).cursor, ?_, nextRecord_atBoundary .., ?_⟩
  · rw [← hp, ← hw]
  · rw [← recordsFrom_eq_pieces, hback]

theorem length_le_of_pieces_drop (h : pieces (log.drop cursor) = []) : log.length ≤ cursor :=
  List.drop_eq_nil_iff.1 (pieces_eq_nil_iff.1 h)

/-- A read at the end takes the record at the front. -/
theorem read_end (hne : log ≠ []) (hend : log.length ≤ cursor) :
    ∃ p c, nextRecord log (0 : Nat) = ⟨p, c, false⟩ ∧ nextRecord log cursor = ⟨p, c, true⟩ := by
  rw [nextRecord_end hend, nextRecord_inside (List.length_pos_iff.2 hne)]
  unfold readAt
  split <;> exact ⟨_, _, rfl, rfl⟩

/-! ## A search by its first read -/

/-- A search that had read some records before. -/
def Sought.later (s : Sought) (reads : Nat) : Sought := { s with reads := s.reads + reads }

/-- A search that had gone on from the front before. -/
def Sought.wrapped (s : Sought) : Sought := { s with wraps := s.wraps + 1 }

theorem seek_read {p : Bytes} {c : Nat} (h : nextRecord log cursor = ⟨p, c, false⟩) (w : Bool) :
    seek log e cursor w =
      if (Record.split e p).target = [] then (seek log e c w).later 1
      else ⟨c, 0, 1, .some (Record.split e p)⟩ := by
  rw [seek, h]
  simp [Sought.later]

/-- At the end a search goes on as one that begins at the front. -/
theorem seek_wrap (hne : log ≠ []) (hend : log.length ≤ cursor) :
    seek log e cursor false = (seek log e 0 true).wrapped := by
  obtain ⟨p, c, hfront, hback⟩ := read_end hne hend
  rw [seek_read hfront, seek, hback]
  by_cases h : (Record.split e p).target = [] <;> simp [h, Sought.later, Sought.wrapped]

theorem seek_giveUp (hend : log.length ≤ cursor) :
    seek log e cursor true = ⟨(nextRecord log cursor).cursor, 0, 1, .none⟩ := by
  have hw : (nextRecord log cursor).wrapped = true := by rw [nextRecord_end hend, readAt_wrapped]
  rw [seek, hw]; rfl

/-! ## What a search finds -/

/-- A search passes over pieces without a target. -/
theorem seek_dead {dead back : List Bytes} (hb : AtBoundary log cursor)
    (h : pieces (log.drop cursor) = dead ++ back) (hdead : ∀ p ∈ dead, (Record.split e p).target = [])
    (w : Bool) :
    ∃ c, AtBoundary log c ∧ pieces (log.drop c) = back ∧
      seek log e cursor w = (seek log e c w).later dead.length := by
  induction dead generalizing cursor with
  | nil => exact ⟨cursor, hb, h, rfl⟩
  | cons p dead ih =>
    obtain ⟨c₁, hread, hb₁, h₁⟩ := read_ahead h
    obtain ⟨c, hc, hback, hseek⟩ := ih hb₁ h₁ fun q hq => hdead q (List.mem_cons_of_mem _ hq)
    refine ⟨c, hc, hback, ?_⟩
    rw [seek_read hread, if_pos (hdead p List.mem_cons_self), hseek]
    simp [Sought.later, Nat.add_assoc]

/-- A search stops at the first piece with a target, having read it and those before it. -/
theorem seek_live {dead back : List Bytes} {p : Bytes} (hb : AtBoundary log cursor)
    (h : pieces (log.drop cursor) = dead ++ p :: back)
    (hdead : ∀ q ∈ dead, (Record.split e q).target = []) (hp : (Record.split e p).target ≠ []) (w : Bool) :
    ∃ c, AtBoundary log c ∧ pieces (log.drop c) = back ∧
      seek log e cursor w = ⟨c, 0, dead.length + 1, .some (Record.split e p)⟩ := by
  obtain ⟨c₁, _, h₁, hseek⟩ := seek_dead hb h hdead w
  obtain ⟨c, hread, hc, hback⟩ := read_ahead h₁
  refine ⟨c, hc, hback, ?_⟩
  rw [hseek, seek_read hread, if_neg hp]
  simp [Sought.later, Nat.add_comm]

/-- A search that finds no target ahead comes to the end. -/
theorem seek_to_end (hb : AtBoundary log cursor) (h : targeted e (log.drop cursor) = []) (w : Bool) :
    seek log e cursor w = (seek log e log.length w).later (pieces (log.drop cursor)).length := by
  have hdead : pieces (log.drop cursor) = pieces (log.drop cursor) ++ [] := (List.append_nil _).symm
  obtain ⟨c, hc, hnil, hseek⟩ := seek_dead hb hdead (withTarget_eq_nil_iff.1 h) w
  rwa [Nat.le_antisymm hc.1 (length_le_of_pieces_drop hnil)] at hseek

/-- **A search takes the first record with a target ahead,** and reads no more than is ahead. -/
theorem seek_ahead {r : Record} {more : List Record} (hb : AtBoundary log cursor)
    (h : targeted e (log.drop cursor) = r :: more) (w : Bool) :
    ∃ c n, AtBoundary log c ∧ targeted e (log.drop c) = more ∧ n ≤ (pieces log).length ∧
      seek log e cursor w = ⟨c, 0, n, .some r⟩ := by
  obtain ⟨dead, p, back, hps, hdead, rfl, hp, rfl⟩ := exists_of_withTarget_eq_cons h
  obtain ⟨c, hc, rfl, hseek⟩ := seek_live hb hps hdead hp w
  refine ⟨c, _, hc, rfl, ?_, hseek⟩
  rw [hb.pieces_eq, hps]
  simp only [List.length_append, List.length_cons]; omega

/-- **Where no record ahead has a target, a search takes the first in the log,** and reads no record
twice. -/
theorem seek_again {r : Record} {more : List Record} (hb : AtBoundary log cursor)
    (h : targeted e (log.drop cursor) = []) (hall : targeted e log = r :: more) :
    ∃ c n, AtBoundary log c ∧ targeted e (log.drop c) = more ∧ n ≤ (pieces log).length ∧
      seek log e cursor false = ⟨c, 1, n, .some r⟩ := by
  have hne : log ≠ [] := by
    intro hnil
    simp [hnil, targeted, pieces_nil, withTarget] at hall
  -- The records ahead have no target, so the first one with a target stands before the cursor.
  have hbehind : targeted e (log.take cursor) = r :: more := by
    rw [← hall, hb.targeted_eq, h, List.append_nil]
  obtain ⟨dead, p, back, hps, hdead, rfl, hp, rfl⟩ := exists_of_withTarget_eq_cons hbehind
  have hlog : pieces (log.drop 0) = dead ++ p :: (back ++ pieces (log.drop cursor)) := by
    rw [List.drop_zero, hb.pieces_eq, hps, List.append_assoc, List.cons_append]
  obtain ⟨c, hc, hback, hseek⟩ := seek_live (atBoundary_zero log) hlog hdead hp true
  refine ⟨c, dead.length + 1 + (pieces (log.drop cursor)).length, hc, ?_, ?_, ?_⟩
  · rw [targeted, hback, withTarget_append, ← targeted, h, List.append_nil]
  · rw [hb.pieces_eq, hps]
    simp only [List.length_append, List.length_cons]; omega
  · rw [seek_to_end hb h, seek_wrap hne (Nat.le_refl _), hseek]; rfl

/-- A search in a log with a target finds one, and reads no record twice. -/
theorem seek_some (hb : AtBoundary log cursor) (hsome : targeted e log ≠ []) :
    ∃ c w n r, AtBoundary log c ∧ n ≤ (pieces log).length ∧ seek log e cursor false = ⟨c, w, n, .some r⟩ := by
  obtain ⟨r, more, hall⟩ := List.exists_cons_of_ne_nil hsome
  rcases hahead : targeted e (log.drop cursor) with _ | ⟨r', more'⟩
  · obtain ⟨c, n, hc, _, hn, hseek⟩ := seek_again hb hahead hall
    exact ⟨c, 1, n, r, hc, hn, hseek⟩
  · obtain ⟨c, n, hc, _, hn, hseek⟩ := seek_ahead hb hahead false
    exact ⟨c, 0, n, r', hc, hn, hseek⟩

/-- **In a log without a target a search gives up at the end,** when it comes there the second
time. -/
theorem seek_nothing (hne : log ≠ []) (hb : AtBoundary log cursor) (hall : targeted e log = []) :
    ∃ c, AtBoundary log c ∧ seek log e cursor false =
      ⟨c, 1, (pieces (log.drop cursor)).length + (pieces log).length + 1, .none⟩ := by
  have hahead : targeted e (log.drop cursor) = [] := by
    rw [hb.targeted_eq, List.append_eq_nil_iff] at hall
    exact hall.2
  refine ⟨_, nextRecord_atBoundary log log.length, ?_⟩
  rw [seek_to_end hb hahead, seek_wrap hne (Nat.le_refl _),
    seek_to_end (atBoundary_zero log) (by simpa using hall), seek_giveUp (Nat.le_refl _)]
  simp only [Sought.wrapped, Sought.later, List.drop_zero, Sought.mk.injEq, and_true, true_and]
  omega

end RequestLog.Scan
