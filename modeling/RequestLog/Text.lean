/-
Text as a list of code points. Unlike a `String` it may hold unpaired
surrogates, which reach a program through its arguments and through escapes
in a configuration.
-/
import RequestLog.Bytes

namespace RequestLog

abbrev Text := List Nat

namespace Text

def ofString (s : String) : Text := s.toList.map Char.toNat

instance : Coe String Text := ⟨ofString⟩

/-- The code points that stand for no character by themselves. -/
def isSurrogate (c : Nat) : Bool := 0xD800 ≤ c && c ≤ 0xDFFF

/-- A digit of a hexadecimal numeral, in lower case. -/
def hexDigit (n : Nat) : Nat := if n < 10 then 48 + n else 87 + n

/-- The last `width` hexadecimal digits of a number. -/
def hex : (width n : Nat) → Text
  | 0, _ => []
  | width + 1, n => hex width (n / 16) ++ [hexDigit (n % 16)]

/-- The decimal numeral of a number. -/
def ofNat (n : Nat) : Text := ofString (toString n)

def ofInt (n : Int) : Text := ofString (toString n)

/-- Each byte as the code point of its number. -/
def ofLatin (bs : Bytes) : Text := bs.map UInt8.toNat

/-- Texts with a separator between neighbours. -/
def join (sep : Text) : List Text → Text
  | [] => []
  | [t] => t
  | t :: ts => t ++ sep ++ join sep ts

/-- What a terminal shows: an unpaired surrogate is written as an escape. -/
def display (t : Text) : String :=
  String.ofList (t.flatMap fun c =>
    if isSurrogate c then '\\' :: 'u' :: (hex 4 c).map Char.ofNat else [Char.ofNat c])

end Text

end RequestLog
