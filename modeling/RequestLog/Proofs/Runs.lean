/-
Where the first part of a text ends. A part that is cut off ends before a
separator that it does not hold; a run of bytes of one kind ends before a byte
of another kind, or with the text. So there is only one of each.
-/
import RequestLog.Bytes

namespace List

variable {α : Type} [BEq α] [LawfulBEq α] {c : α}

theorem cutAt_append {as : List α} (h : c ∉ as) (bs : List α) : (as ++ c :: bs).cutAt c = (as, .some bs) := by
  induction as with
  | nil => simp [cutAt]
  | cons a as ih =>
    simp only [mem_cons, not_or] at h
    have ha : (a == c) = false := by simpa using Ne.symm h.1
    simp [cutAt, ha, ih h.2]

theorem cutAt_of_not_mem {as : List α} (h : c ∉ as) : as.cutAt c = (as, .none) := by
  induction as with
  | nil => rfl
  | cons a as ih =>
    simp only [mem_cons, not_or] at h
    have ha : (a == c) = false := by simpa using Ne.symm h.1
    simp [cutAt, ha, ih h.2]

end List

namespace RequestLog.Bytes

/-- A run of bytes of one kind before a rest that does not begin with that kind. -/
structure Run (p : UInt8 → Bool) (run rest : Bytes) : Prop where
  all : ∀ b ∈ run, p b = true
  stop : ∀ b ∈ rest.head?, p b = false

variable {p : UInt8 → Bool} {run rest : Bytes}

theorem Run.takeWhile (h : Run p run rest) : (run ++ rest).takeWhile p = run := by
  rw [List.takeWhile_append_of_pos h.all]
  cases rest with
  | nil => exact List.append_nil run
  | cons b rest => rw [List.takeWhile_cons_of_neg (by simp [h.stop b rfl]), List.append_nil]

theorem Run.dropWhile (h : Run p run rest) : (run ++ rest).dropWhile p = rest := by
  rw [List.dropWhile_append_of_pos h.all]
  cases rest with
  | nil => rfl
  | cons b rest => exact List.dropWhile_cons_of_neg (by simp [h.stop b rfl])

theorem run_takeWhile (p : UInt8 → Bool) (bs : Bytes) : Run p (bs.takeWhile p) (bs.dropWhile p) := by
  induction bs with
  | nil => exact ⟨nofun, nofun⟩
  | cons b bs ih =>
    by_cases hb : p b = true
    · rw [List.takeWhile_cons_of_pos hb, List.dropWhile_cons_of_pos hb]
      exact ⟨List.forall_mem_cons.2 ⟨hb, ih.all⟩, ih.stop⟩
    · rw [List.takeWhile_cons_of_neg hb, List.dropWhile_cons_of_neg hb]
      exact ⟨nofun, fun c hc => by cases hc; simpa using hb⟩

end RequestLog.Bytes
