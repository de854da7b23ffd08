/-
The quoted form in which messages show a text or a byte string. Single
quotes stand around it, or double ones where that saves escaping: where it
holds a single quote and no double one. Inside, a backslash, the quote in
use and all that does not print are written as escapes.
-/
import RequestLog.Text.Printable

namespace RequestLog

namespace Text

/-- The quote that goes around a text. -/
def quoteFor (t : Text) : Nat := if t.contains 39 && !t.contains 34 then 34 else 39

/-- The escapes that every quoted form shares. -/
def escape? (quote c : Nat) : Option Text :=
  if c == quote || c == 92 then .some [92, c]
  else if c == 9 then .some "\\t"
  else if c == 10 then .some "\\n"
  else if c == 13 then .some "\\r"
  else .none

/-- One character of a quoted text. -/
def quotedChar (quote c : Nat) : Text :=
  match escape? quote c with
  | .some t => t
  | .none =>
    if isPrintable c then [c]
    else if c < 0x100 then 92 :: 120 :: hex 2 c
    else if c < 0x10000 then 92 :: 117 :: hex 4 c
    else 92 :: 85 :: hex 8 c

def quoted (t : Text) : Text :=
  let q := quoteFor t
  q :: (t.flatMap (quotedChar q) ++ [q])

end Text

namespace Bytes

/-- One byte of a quoted byte string. -/
def quotedByte (quote : Nat) (b : UInt8) : Text :=
  match Text.escape? quote b.toNat with
  | .some t => t
  | .none => if 32 ≤ b && b < 127 then [b.toNat] else 92 :: 120 :: Text.hex 2 b.toNat

/-- The quoted form of a byte string has a `b` before its quotes. -/
def quoted (bs : Bytes) : Text :=
  let q := Text.quoteFor (Text.ofLatin bs)
  98 :: q :: (bs.flatMap (quotedByte q) ++ [q])

end Bytes

end RequestLog
