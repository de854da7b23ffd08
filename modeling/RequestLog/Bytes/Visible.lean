/-
Bytes as visible text. A printable ASCII byte other than a backslash stands
for itself and every other byte for an escape, so that no byte can look like
a tab, a line end or another byte.
-/
import RequestLog.Text

namespace RequestLog.Bytes

/-- A byte as visible text. -/
def visibleByte (b : UInt8) : Text :=
  if b == 92 then "\\\\"
  else if b == 9 then "\\t"
  else if b == 10 then "\\n"
  else if b == 13 then "\\r"
  else if 32 ≤ b && b < 127 then [b.toNat]
  else "\\x" ++ Text.hex 2 b.toNat

def visible (bs : Bytes) : Text := bs.flatMap visibleByte

end RequestLog.Bytes
