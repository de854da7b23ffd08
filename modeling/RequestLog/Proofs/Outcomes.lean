/-
Results that may be failures: what it means for steps one after the other, or
for each element of a list, to succeed or to fail.
-/
import RequestLog.Failure

namespace RequestLog

variable {ε ε' α β : Type}

theorem bind_eq_ok_iff {x : Except ε α} {f : α → Except ε β} {b : β} :
    (x >>= f) = .ok b ↔ ∃ a, x = .ok a ∧ f a = .ok b := by
  cases x <;> simp [bind, Except.bind]

/-- Steps fail at the first that does. -/
theorem bind_eq_error_iff {x : Except ε α} {f : α → Except ε β} {e : ε} :
    (x >>= f) = .error e ↔ x = .error e ∨ ∃ a, x = .ok a ∧ f a = .error e := by
  cases x <;> simp [bind, Except.bind]

theorem mapError_eq_ok_iff {x : Except ε α} {f : ε → ε'} {a : α} : x.mapError f = .ok a ↔ x = .ok a := by
  cases x with
  | error e => exact iff_of_false nofun nofun
  | ok b =>
    constructor
    · intro h; cases h; rfl
    · intro h; cases h; rfl

theorem mapError_eq_error_iff {x : Except ε α} {f : ε → ε'} {e : ε'} :
    x.mapError f = .error e ↔ ∃ d, x = .error d ∧ f d = e := by
  cases x with
  | ok b => exact iff_of_false nofun nofun
  | error d =>
    constructor
    · intro h; cases h; exact ⟨d, rfl, rfl⟩
    · rintro ⟨d, hd, rfl⟩; cases hd; rfl

theorem map_eq_ok_iff {x : Except ε α} {f : α → β} {b : β} : x.map f = .ok b ↔ ∃ a, x = .ok a ∧ f a = b := by
  cases x <;> simp [Except.map]

theorem map_eq_error_iff {x : Except ε α} {f : α → β} {e : ε} : x.map f = .error e ↔ x = .error e := by
  cases x <;> simp [Except.map]

theorem ite_eq_ok_iff {c : Bool} {e : ε} {a b : α} :
    (if c then Except.error e else .ok a) = .ok b ↔ a = b ∧ c = false := by
  cases c <;> simp

theorem exists_map_ok_iff {f : α → Except ε β} {as : List α} :
    (∃ bs : List β, as.map f = bs.map .ok) ↔ ∀ a ∈ as, ∃ b, f a = .ok b := by
  induction as with
  | nil => simp
  | cons a as ih =>
    rw [List.forall_mem_cons, ← ih]
    constructor
    · rintro ⟨bs, h⟩
      obtain ⟨b, bs, rfl, hb, hbs⟩ := List.map_eq_cons_iff.1 h.symm
      exact ⟨⟨b, hb.symm⟩, bs, hbs.symm⟩
    · rintro ⟨⟨b, hb⟩, bs, hbs⟩
      exact ⟨b :: bs, by simp [hb, hbs]⟩

end RequestLog
