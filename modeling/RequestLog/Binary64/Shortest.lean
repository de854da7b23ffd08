/-
The decimal text of a number: the fewest digits that read back as the number,
and of those the nearest to it. The point stands among the digits as long as
the number has no more than sixteen places before it and no more than four
zeros behind it; beyond that an exponent follows.
-/
import RequestLog.Binary64

namespace RequestLog.Binary64

/-! ## Digits -/

/-- The numbers between which all reals round to `significand * 2 ^ exponent`, in quarters of its
last place, and whether they themselves do. -/
structure Interval where
  low : Nat
  high : Nat
  closed : Bool

/-- Below a power of two the numbers lie twice as close. -/
def interval (m : Nat) (e : Int) : Interval :=
  { low := if m = leastLong ∧ minExponent < e then 4 * m - 1 else 4 * m - 2
    high := 4 * m + 2
    closed := m % 2 = 0 }

/-- The places before the point of a quotient that is not zero; for one below a tenth they are
negative. -/
def places (num den : Nat) : Int :=
  if den ≤ num then (toString (num / den)).length
  else
    match (List.range 400).find? fun j => den ≤ num * Nat.pow 10 (j + 1) with
    | .some j => -j
    | .none => -400

/-- Tries the grid of multiples of `10 ^ grid`: its points on either side of the number that read
back as it, and of two such points the nearer, a tie to the even one. -/
def onGrid (i : Interval) (quarters : Nat) (e grid : Int) : Option Nat :=
  let scale (n : Nat) : Nat × Nat :=
    let (num, den) := scaleDown 2 n 1 (2 - e)
    scaleDown 10 num den grid
  let (n, d) := scale quarters
  let below := n / d
  let reaches (bound : Nat × Nat) (k : Nat) : Bool :=
    bound.1 < k * bound.2 || (i.closed && bound.1 == k * bound.2)
  let reachedBy (bound : Nat × Nat) (k : Nat) : Bool :=
    k * bound.2 < bound.1 || (i.closed && k * bound.2 == bound.1)
  let belowIn := reaches (scale i.low) below
  let aboveIn := reachedBy (scale i.high) (below + 1)
  if belowIn && aboveIn then
    let r := n % d
    .some (if 2 * r < d || (2 * r == d && below % 2 == 0) then below else below + 1)
  else if belowIn then .some below
  else if aboveIn then .some (below + 1)
  else .none

/-- A decimal without zeros at its end. -/
def dropZeros : (fuel n : Nat) → Int → Nat × Int
  | 0, n, g => (n, g)
  | fuel + 1, n, g => if n % 10 = 0 ∧ n ≠ 0 then dropZeros fuel (n / 10) (g + 1) else (n, g)

/-- The shortest decimal of `significand * 2 ^ exponent`, as digits and a power of ten. -/
def shortest (m : Nat) (e : Int) : Nat × Int :=
  let quarters := 4 * m
  let (num, den) := scaleDown 2 quarters 1 (2 - e)
  let k := places num den
  let i := interval m e
  match (List.range 17).findSome? fun (n : Nat) =>
      (onGrid i quarters e (k - (n + 1))).map fun d => (d, k - (n + 1)) with
  | .some (d, g) => dropZeros 20 d g
  | .none => (0, 0)

/-! ## Layout -/

/-- The text of digits and a power of ten. -/
def layout (digits : Nat) (grid : Int) : Text :=
  let ds := Text.ofNat digits
  let point : Int := ds.length + grid
  let zeros (n : Int) : Text := List.replicate n.toNat 48
  if -4 < point ∧ point ≤ 16 then
    if point ≤ 0 then "0." ++ zeros (-point) ++ ds
    else if point < ds.length then ds.take point.toNat ++ "." ++ ds.drop point.toNat
    else ds ++ zeros (point - ds.length) ++ ".0"
  else
    let x := point - 1
    let magnitude := Text.ofNat x.natAbs
    let sign : Text := if x < 0 then "-" else "+"
    let rest : Text := if ds.length = 1 then [] else "." ++ ds.drop 1
    ds.take 1 ++ rest ++ "e" ++ sign ++ (if magnitude.length < 2 then 48 :: magnitude else magnitude)

/-- The text of a number. -/
def text : Binary64 → Text
  | nan => "nan"
  | infinite s => if s then "-inf" else "inf"
  | finite s m e =>
    let body : Text :=
      if m = 0 then "0.0"
      else
        let (d, g) := shortest m e
        layout d g
    if s then 45 :: body else body

end RequestLog.Binary64
