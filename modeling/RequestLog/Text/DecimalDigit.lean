/-
Decimal digits of every script in Unicode 14, and the integers written with
them.
-/
import RequestLog.Text.Blank

namespace RequestLog.Text

/-- The zero of each script; its nine other digits follow it. -/
def zeros : List Nat :=
  [0x30, 0x660, 0x6f0, 0x7c0, 0x966, 0x9e6, 0xa66, 0xae6, 0xb66, 0xbe6, 0xc66, 0xce6, 0xd66, 0xde6,
   0xe50, 0xed0, 0xf20, 0x1040, 0x1090, 0x17e0, 0x1810, 0x1946, 0x19d0, 0x1a80, 0x1a90, 0x1b50,
   0x1bb0, 0x1c40, 0x1c50, 0xa620, 0xa8d0, 0xa900, 0xa9d0, 0xa9f0, 0xaa50, 0xabf0, 0xff10, 0x104a0,
   0x10d30, 0x11066, 0x110f0, 0x11136, 0x111d0, 0x112f0, 0x11450, 0x114d0, 0x11650, 0x116c0,
   0x11730, 0x118e0, 0x11950, 0x11c50, 0x11d50, 0x11da0, 0x16a60, 0x16ac0, 0x16b50, 0x1d7ce,
   0x1d7d8, 0x1d7e2, 0x1d7ec, 0x1d7f6, 0x1e140, 0x1e2f0, 0x1e950, 0x1fbf0]

/-- The value of a decimal digit. -/
def digit? (c : Nat) : Option Nat :=
  (zeros.find? fun z => z ≤ c && c < z + 10).map (c - ·)

/-- The digits of a numeral, in which single underscores may stand between digits. -/
def digits? : Text → Option (List Nat)
  | [] => .none
  | [c] => (digit? c).map ([·])
  | c :: 95 :: rest => do return (← digit? c) :: (← digits? rest)
  | c :: rest => do return (← digit? c) :: (← digits? rest)

def isAsciiDigit (c : Nat) : Bool := 48 ≤ c && c ≤ 57

/-- A text with the digits of ASCII in place of those of other scripts. -/
def withAsciiDigits (t : Text) : Text :=
  t.map fun c => match digit? c with
    | .some d => 48 + d
    | .none => c

/-- A text without its underscores, each of which must stand between two digits. -/
def joinDigits? : (afterDigit : Bool) → Text → Option Text
  | _, [] => .some []
  | afterDigit, 95 :: c :: rest =>
    if afterDigit && isAsciiDigit c then (joinDigits? true rest).map (c :: ·) else .none
  | _, [95] => .none
  | _, c :: rest => (joinDigits? (isAsciiDigit c) rest).map (c :: ·)

/-- The number a list of digits stands for in a base. -/
def digitsValue (base : Nat) (ds : List Nat) : Nat := ds.foldl (fun n d => n * base + d) 0

/-- The longest numeral that is read. -/
def maxDigits : Nat := 4300

/-- The least number whose numeral is too long. -/
def leastTooLong : Nat := Nat.pow 10 maxDigits

/-- The integer a text stands for: white space around it and a sign before it are allowed. -/
def toInt? (t : Text) : Option Int := do
  let (sign, numeral) := match t.trim isPadding with
    | 43 :: rest => ((1 : Int), rest)
    | 45 :: rest => (-1, rest)
    | rest => (1, rest)
  let ds ← digits? numeral
  if ds.length ≤ maxDigits then .some (sign * digitsValue 10 ds) else .none

end RequestLog.Text
