/-
Binary floating-point numbers of 64 bits, as exact values: a significand
below 2^53 times a power of two. Every operation takes the exact result and
rounds it to the nearest number, a tie to the even significand.
-/
import RequestLog.Text.DecimalDigit

namespace RequestLog

/-- A finite number is `significand * 2 ^ exponent`. The exponent is the least that leaves room for
53 bits, but not below -1074. -/
inductive Binary64 where
  | finite (negative : Bool) (significand : Nat) (exponent : Int)
  | infinite (negative : Bool)
  | nan
  deriving Repr, DecidableEq

namespace Binary64

def minExponent : Int := -1074

def maxExponent : Int := 971

/-- The least significand of 53 bits. -/
def leastLong : Nat := 0x10000000000000

def zero (negative : Bool) : Binary64 := finite negative 0 minExponent

/-- Zero of either sign. -/
def isZero : Binary64 → Bool
  | finite _ m _ => m == 0
  | _ => false

/-- A quotient rounded to the nearest integer, a tie to the even one. -/
def roundDiv (num den : Nat) : Nat :=
  let q := num / den
  let r := num % den
  if 2 * r < den then q
  else if den < 2 * r then q + 1
  else if q % 2 = 0 then q else q + 1

/-- Two numbers whose quotient is that of `num` and `den` divided by a power of a base. -/
def scaleDown (base : Nat) (num den : Nat) (e : Int) : Nat × Nat :=
  if 0 ≤ e then (num, den * Nat.pow base e.toNat) else (num * Nat.pow base (-e).toNat, den)

/-- The number nearest to a quotient. -/
def ofQuotient (negative : Bool) (num den : Nat) : Binary64 :=
  if num = 0 then zero negative
  else
    let guess : Int := (num.log2 : Int) - den.log2 - 52
    let (n, d) := scaleDown 2 num den guess
    let e := max minExponent (if n / d < leastLong then guess - 1 else guess)
    let (n, d) := scaleDown 2 num den e
    let m := roundDiv n d
    let (m, e) := if m = 2 * leastLong then (leastLong, e + 1) else (m, e)
    if maxExponent < e then infinite negative else finite negative m e

/-- The number nearest to `significand * 10 ^ exponent`. A decimal of more than 400 places before or
behind the point is out of range, and its power is not computed. -/
def ofDecimal (negative : Bool) (significand : Nat) (exponent : Int) : Binary64 :=
  if significand = 0 then zero negative
  else
    let places := (toString significand).length + exponent
    if 400 < places then infinite negative
    else if places < -400 then zero negative
    else
      let (n, d) := scaleDown 10 significand 1 (-exponent)
      ofQuotient negative n d

def neg : Binary64 → Binary64
  | finite s m e => finite (!s) m e
  | infinite s => infinite (!s)
  | nan => nan

/-- A finite number as an integer times a power of two. -/
def signed (negative : Bool) (m : Nat) : Int := if negative then -m else m

/-- The number nearest to a natural number times a power of two, with a sign. -/
def ofDyadic (negative : Bool) (n : Nat) (e : Int) : Binary64 :=
  let (num, den) := scaleDown 2 n 1 (-e)
  ofQuotient negative num den

def ofInt (n : Int) : Binary64 := ofDyadic (n < 0) n.natAbs 0

/-- The sum of two numbers. A sum of zero is negative only if both numbers are. -/
def add : Binary64 → Binary64 → Binary64
  | finite s m e, finite s' m' e' =>
    let least := min e e'
    let scaled (n : Int) (e : Int) : Int := n * Nat.pow 2 (e - least).toNat
    let sum := scaled (signed s m) e + scaled (signed s' m') e'
    ofDyadic (if sum = 0 then s && s' else sum < 0) sum.natAbs least
  | nan, _ | _, nan => nan
  | infinite s, infinite s' => if s == s' then infinite s else nan
  | infinite s, finite _ _ _ | finite _ _ _, infinite s => infinite s

/-- The product of two numbers. Its sign is negative if just one of theirs is. -/
def mul : Binary64 → Binary64 → Binary64
  | finite s m e, finite s' m' e' => ofDyadic (s != s') (m * m') (e + e')
  | nan, _ | _, nan => nan
  | infinite s, infinite s' => infinite (s != s')
  | infinite s, finite s' m _ | finite s m _, infinite s' => if m = 0 then nan else infinite (s != s')

/-- Whether two numbers have the same value; a zero has the value of the other zero, and what is no
number has no value. -/
def same : Binary64 → Binary64 → Bool
  | finite s m e, finite s' m' e' => m == m' && (m == 0 || (s == s' && e == e'))
  | infinite s, infinite s' => s == s'
  | _, _ => false

/-- Whether a number has the value of an integer. -/
def isInt : Binary64 → Int → Bool
  | finite s m e, n =>
    if 0 ≤ e then signed s m * Nat.pow 2 e.toNat == n else signed s m == n * Nat.pow 2 (-e).toNat
  | _, _ => false

/-! ## Reading -/

/-- The digits at the head of a text, and the rest. -/
def takeDigits (t : Text) : List Nat × Text :=
  ((t.takeWhile fun c => 48 ≤ c && c ≤ 57).map (· - 48), t.dropWhile fun c => 48 ≤ c && c ≤ 57)

/-- The exponent that ends a numeral, if all the text is one. -/
def exponent? : Text → Option Int
  | [] => .some 0
  | c :: rest =>
    if c != 101 && c != 69 then .none
    else
      let (sign, rest) : Int × Text := match rest with
        | 43 :: rest => (1, rest)
        | 45 :: rest => (-1, rest)
        | rest => (1, rest)
      match takeDigits rest with
      | ([], _) => .none
      | (ds, []) => .some (sign * Text.digitsValue 10 ds)
      | _ => .none

/-- The number that a numeral without a sign stands for. -/
def ofNumeral? (negative : Bool) (t : Text) : Option Binary64 := do
  let (whole, rest) := takeDigits t
  let (fraction, rest) := match rest with
    | 46 :: rest => takeDigits rest
    | rest => ([], rest)
  if whole.isEmpty && fraction.isEmpty then .none
  else
    let e ← exponent? rest
    return ofDecimal negative (Text.digitsValue 10 (whole ++ fraction)) (e - fraction.length)

/-- The number that a text stands for: a numeral, or a name of what is not finite, in any case. White
space around it does not count, its digits may be those of any script, and single underscores may
stand between them. -/
def read? (t : Text) : Option Binary64 := do
  let t ← Text.joinDigits? false (t.trim Text.isPadding).withAsciiDigits.lower
  let (negative, rest) := match t with
    | 45 :: rest => (true, rest)
    | 43 :: rest => (false, rest)
    | rest => (false, rest)
  if rest == Text.ofString "inf" || rest == Text.ofString "infinity" then .some (infinite negative)
  else if rest == Text.ofString "nan" then .some nan
  else ofNumeral? negative rest

end Binary64

end RequestLog
