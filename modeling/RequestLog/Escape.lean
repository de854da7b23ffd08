/-
The escape grammar of header text. A NUL ends a text. What comes before it is
gone through byte by byte: a backslash begins an escape, and any other byte
stands for itself.

An escape that is a digit is the number in the octal digits from there on.
The index then goes back to the digit and past the run, which is empty at 8
and 9. Such a digit is met again, as a byte of its own. A backslash that means
nothing is reported and otherwise harmless.
-/
import RequestLog.Datum
import RequestLog.Notice

namespace RequestLog.Escape

/-- The byte that begins an escape. -/
abbrev backslash : UInt8 := 92

/-- The bytes that a letter after a backslash stands for. -/
def simple? (b : UInt8) : Option Bytes :=
  if b = 92 then .some [92]
  else if b = 97 then .some [10]
  else if b = 114 then .some [13]
  else if b = 110 then .some [13, 10]
  else .none

def isDigit (b : UInt8) : Bool := 48 ≤ b && b ≤ 57

def isOctal (b : UInt8) : Bool := 48 ≤ b && b ≤ 55

/-! ## Octal digits -/

/-- The number that octal digits stand for. -/
def octalValue (digits : Bytes) : Nat := digits.foldl (fun n d => n * 8 + (d.toNat - 48)) 0

/-- The index at which the octal digits from an index on come to an end. -/
def runEnd (data : Bytes) (i : Nat) : Nat :=
  if h : i < data.length then if isOctal data[i] then runEnd data (i + 1) else i
  else i
termination_by data.length - i

theorem le_runEnd (data : Bytes) (i : Nat) : i ≤ runEnd data i := by
  fun_induction runEnd data i with
  | case1 i _ _ ih => omega
  | case2 => exact Nat.le_refl _
  | case3 => exact Nat.le_refl _

/-- The number in the octal digits from an index on, of which only the low byte counts, and the index
after them. Where there are none it is zero. -/
def octalRun (data : Bytes) (start : Nat) : UInt8 × Nat :=
  let stop := runEnd data start
  if stop = start then (0, start) else ((octalValue ((data.take stop).drop start)).toUInt8, stop)

theorem le_octalRun (data : Bytes) (start : Nat) : start ≤ (octalRun data start).2 := by
  simp only [octalRun]
  split
  · exact Nat.le_refl _
  · exact le_runEnd data start

/-! ## Texts -/

/-- Goes through a text from an index on, after some bytes have been written and some notices given. -/
def decodeFrom (source : Text) (data : Bytes) (i : Nat) (out : Bytes) (told : List Notice) : Noted Bytes :=
  if h : i < data.length then
    if data[i] ≠ backslash then decodeFrom source data (i + 1) (out ++ [data[i]]) told
    else if h' : i + 1 < data.length then
      match simple? data[i + 1] with
      | .some bs => decodeFrom source data (i + 2) (out ++ bs) told
      | .none =>
        if isDigit data[i + 1] then
          decodeFrom source data (octalRun data (i + 1)).2 (out ++ [(octalRun data (i + 1)).1]) told
        else decodeFrom source data (i + 2) (out ++ [data[i + 1]]) (told ++ [.unknownEscape data[i + 1] source])
    else ⟨told ++ [.trailingBackslash source], out⟩
  else ⟨told, out⟩
termination_by data.length - i
decreasing_by
  · omega
  · omega
  · have := le_octalRun data (i + 1); omega
  · omega

/-- The part of a text that is read: a NUL ends it. -/
def readable (raw : Bytes) : Bytes := raw.takeWhile (· != 0)

/-- The bytes that a header text stands for, and a notice for each backslash without meaning. -/
def unescape (raw : Bytes) (source : Text) : Noted Bytes := decodeFrom source (readable raw) 0 [] []

/-- The bytes that header data stands for. -/
def unescapeDatum (raw : Datum) (source : Text) : Except EncodeFault (Noted Bytes) :=
  raw.toBytes.map (unescape · source)

/-- Where a header given as an option comes from. -/
def optionSource : Text := "--add-header"

/-- Where a header inside a log comes from. -/
def logSource : Text := "embedded http headers"

end RequestLog.Escape
