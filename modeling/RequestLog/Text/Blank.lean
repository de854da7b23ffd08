/-
White space in text: the characters that separate words, in every script.
-/
import RequestLog.Text

namespace RequestLog.Text

/-- Closed ranges of code points, ascending and apart. -/
def blankRanges : List (Nat × Nat) :=
  [(0x9, 0xd), (0x1c, 0x20), (0x85, 0x85), (0xa0, 0xa0), (0x1680, 0x1680), (0x2000, 0x200a),
   (0x2028, 0x2029), (0x202f, 0x202f), (0x205f, 0x205f), (0x3000, 0x3000)]

def inRanges (rs : List (Nat × Nat)) (c : Nat) : Bool := rs.any fun r => r.1 ≤ c && c ≤ r.2

def isBlank (c : Nat) : Bool := inRanges blankRanges c

/-- The white space that may stand around a numeral: that around a word, but without the separators
of ASCII. -/
def isPadding (c : Nat) : Bool := isBlank c && !(0x1c ≤ c && c ≤ 0x1f)

/-- A text without the characters of a kind at its ends. -/
def trim (p : Nat → Bool) (t : Text) : Text := ((t.dropWhile p).reverse.dropWhile p).reverse

/-- A text without the white space at its ends. -/
def strip (t : Text) : Text := t.trim isBlank

/-- Lower case in ASCII letters only. -/
def lower (t : Text) : Text := t.map fun c => if 65 ≤ c && c ≤ 90 then c + 32 else c

end RequestLog.Text
