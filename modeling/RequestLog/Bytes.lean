/-
Byte strings, as lists: the ends a caller may name from either side, the
search for a pattern, and the white space that separates words of a line.
-/

namespace List

/-- The elements before the first `c`, and those after it if there is one. -/
def cutAt {α : Type} [BEq α] (c : α) : List α → List α × Option (List α)
  | [] => ([], .none)
  | a :: as => if a == c then ([], .some as) else (a :: (cutAt c as).1, (cutAt c as).2)

end List

namespace RequestLog

abbrev Bytes := List UInt8

namespace Bytes

/-- Where an end falls in a list of `size` elements: a negative end counts from the back, and no
end lies outside. -/
def clip (size : Nat) (i : Int) : Nat :=
  if i < 0 then (size + i).toNat else min i.toNat size

theorem clip_le (size : Nat) (i : Int) : clip size i ≤ size := by
  unfold clip; split <;> omega

theorem clip_ofNat {size n : Nat} (h : n ≤ size) : clip size n = n := by
  unfold clip; split <;> omega

/-- The bytes before an end. -/
def upTo (bs : Bytes) (stop : Int) : Bytes := bs.take (clip bs.length stop)

/-- The bytes between two ends; an absent end is the end of the list. -/
def slice (bs : Bytes) (start stop : Option Int) : Bytes :=
  (match stop with | .none => bs | .some j => bs.upTo j).drop
    (match start with | .none => 0 | .some i => clip bs.length i)

/-- The first place at which `pattern` stands, counted from `i`. -/
def indexFrom (pattern : Bytes) : Bytes → Nat → Option Nat
  | [], i => if pattern.isEmpty then .some i else .none
  | b :: bs, i => if pattern.isPrefixOf (b :: bs) then .some i else indexFrom pattern bs (i + 1)

/-- The first place at or after `start` at which `pattern` stands. -/
def find (bs pattern : Bytes) (start : Int) : Option Nat :=
  indexFrom pattern (bs.drop (clip bs.length start)) (clip bs.length start)

theorem indexFrom_bounds {b : UInt8} {bs : Bytes} {i k : Nat} (h : indexFrom [b] bs i = .some k) :
    i ≤ k ∧ k < i + bs.length := by
  induction bs generalizing i with
  | nil => simp [indexFrom] at h
  | cons c bs ih =>
    simp only [indexFrom] at h
    split at h
    · simp only [Option.some.injEq] at h; subst h; simp
    · have := ih h; simp only [List.length_cons]; omega

theorem find_bounds {b : UInt8} {bs : Bytes} {start : Int} {k : Nat} (h : bs.find [b] start = .some k) :
    clip bs.length start ≤ k ∧ k < bs.length := by
  have := indexFrom_bounds h
  have := clip_le bs.length start
  simp only [List.length_drop] at *
  omega

/-- Tab, line feed, vertical tab, form feed, carriage return and space. -/
def isSpace (b : UInt8) : Bool := b == 32 || (9 ≤ b && b ≤ 13)

/-- A list without the white space at its ends. -/
def strip (bs : Bytes) : Bytes :=
  ((bs.dropWhile isSpace).reverse.dropWhile isSpace).reverse

/-- A list up to and with its first line feed, and the rest. -/
def cutLine : Bytes → Bytes × Bytes
  | [] => ([], [])
  | b :: bs => if b == 10 then ([b], bs) else (b :: (cutLine bs).1, (cutLine bs).2)

theorem cutLine_append : ∀ bs : Bytes, (cutLine bs).1 ++ (cutLine bs).2 = bs
  | [] => rfl
  | b :: bs => by
    simp only [cutLine]
    split
    · rfl
    · simp [cutLine_append bs]

theorem length_cutLine_snd (b : UInt8) (bs : Bytes) : (cutLine (b :: bs)).2.length < bs.length + 1 := by
  have h := congrArg List.length (cutLine_append bs)
  simp only [List.length_append] at h
  simp only [cutLine]
  split <;> simp only <;> omega

/-- The lines of a file, each with its line feed. -/
def lines : Bytes → List Bytes
  | [] => []
  | b :: bs => (cutLine (b :: bs)).1 :: lines (cutLine (b :: bs)).2
termination_by bs => bs.length
decreasing_by exact length_cutLine_snd b bs

end Bytes

end RequestLog
