/-
Text as bytes, in UTF-8. A byte that is no part of a character travels in a
text as one of 128 unpaired surrogates, U+DC80 to U+DCFF, and writing the
text gives the byte back; the other surrogates have no bytes. Reading is
strict: the first byte sequence that stands for no character is a fault.
-/
import RequestLog.Text

namespace RequestLog

/-- The surrogates in a text that have no bytes: the first of them, and where they begin and end. -/
structure EncodeFault where
  first : Nat
  start : Nat
  stop : Nat
  deriving Repr, DecidableEq

namespace EncodeFault

def message (f : EncodeFault) : Text :=
  if f.stop = f.start + 1 then
    "'utf-8' codec can't encode character '\\u" ++ Text.hex 4 f.first ++
      "' in position " ++ Text.ofNat f.start ++ ": surrogates not allowed"
  else
    "'utf-8' codec can't encode characters in position " ++ Text.ofNat f.start ++
      "-" ++ Text.ofNat (f.stop - 1) ++ ": surrogates not allowed"

end EncodeFault

namespace Text

/-- The surrogates that stand for a byte. -/
def isEscapedByte (c : Nat) : Bool := 0xDC80 ≤ c && c ≤ 0xDCFF

/-- The bytes of one character; a surrogate stands for its low byte. -/
def charBytes (c : Nat) : Bytes :=
  if c < 0x80 then [c.toUInt8]
  else if c < 0x800 then [(0xC0 + c / 64).toUInt8, (0x80 + c % 64).toUInt8]
  else if isSurrogate c then [(c % 256).toUInt8]
  else if c < 0x10000 then
    [(0xE0 + c / 4096).toUInt8, (0x80 + c / 64 % 64).toUInt8, (0x80 + c % 64).toUInt8]
  else
    [(0xF0 + c / 262144).toUInt8, (0x80 + c / 4096 % 64).toUInt8, (0x80 + c / 64 % 64).toUInt8,
      (0x80 + c % 64).toUInt8]

/-- A text without bytes is reported with all the surrogates that follow the first bad one. -/
def bytesFrom (i : Nat) : Text → Except EncodeFault Bytes
  | [] => .ok []
  | c :: cs =>
    if isSurrogate c && !isEscapedByte c then
      .error ⟨c, i, i + 1 + (cs.takeWhile isSurrogate).length⟩
    else (bytesFrom (i + 1) cs).map (charBytes c ++ ·)

/-- The bytes of a text. -/
def toBytes (t : Text) : Except EncodeFault Bytes := bytesFrom 0 t

end Text

namespace Utf8

/-- Why bytes are no character. -/
inductive Reason where
  | badStart
  | badContinuation
  | cutShort
  deriving Repr, DecidableEq

def Reason.message : Reason → String
  | .badStart => "invalid start byte"
  | .badContinuation => "invalid continuation byte"
  | .cutShort => "unexpected end of data"

/-- The bytes that stand for no character: the first of them, their place and their number. -/
structure Fault where
  first : UInt8
  start : Nat
  width : Nat
  reason : Reason
  deriving Repr, DecidableEq

def Fault.message (f : Fault) : Text :=
  if f.width = 1 then
    "'utf-8' codec can't decode byte 0x" ++ Text.hex 2 f.first.toNat ++
      " in position " ++ Text.ofNat f.start ++ ": " ++ f.reason.message
  else
    "'utf-8' codec can't decode bytes in position " ++ Text.ofNat f.start ++ "-" ++
      Text.ofNat (f.start + f.width - 1) ++ ": " ++ f.reason.message

/-- What stands at the head of some bytes. -/
inductive Head where
  | char (c : Nat) (rest : Bytes)
  | bad (width : Nat) (reason : Reason)
  | short

/-- Reads `n` more bytes of a character, the first of them between `lo` and `hi`; `value` and
`width` are of the bytes before. -/
def continuation : (n : Nat) → (lo hi : UInt8) → (value width : Nat) → Bytes → Head
  | 0, _, _, value, _, bs => .char value bs
  | _ + 1, _, _, _, _, [] => .short
  | n + 1, lo, hi, value, width, b :: bs =>
    if lo ≤ b && b ≤ hi then continuation n 0x80 0xBF (value * 64 + b.toNat % 64) (width + 1) bs
    else .bad width .badContinuation

/-- Reads one character that begins with `b`. -/
def head (b : UInt8) (bs : Bytes) : Head :=
  if b < 0x80 then .char b.toNat bs
  else if b < 0xC2 then .bad 1 .badStart
  else if b < 0xE0 then continuation 1 0x80 0xBF (b.toNat % 32) 1 bs
  else if b < 0xF0 then
    continuation 2 (if b = 0xE0 then 0xA0 else 0x80) (if b = 0xED then 0x9F else 0xBF) (b.toNat % 16) 1 bs
  else if b < 0xF5 then
    continuation 3 (if b = 0xF0 then 0x90 else 0x80) (if b = 0xF4 then 0x8F else 0xBF) (b.toNat % 8) 1 bs
  else .bad 1 .badStart

theorem continuation_length {n : Nat} {lo hi : UInt8} {value width c : Nat} {bs rest : Bytes}
    (h : continuation n lo hi value width bs = .char c rest) : rest.length ≤ bs.length := by
  induction n generalizing lo hi value width bs with
  | zero =>
    obtain ⟨_, rfl⟩ := Head.char.inj h
    exact Nat.le_refl _
  | succ n ih =>
    cases bs with
    | nil => simp [continuation] at h
    | cons b bs =>
      simp only [continuation] at h
      split at h
      · have := ih h; simp only [List.length_cons]; omega
      · cases h

theorem head_length {b : UInt8} {bs rest : Bytes} {c : Nat} (h : head b bs = .char c rest) :
    rest.length ≤ bs.length := by
  unfold head at h
  repeat' split at h
  all_goals first | exact continuation_length h | simp_all

/-- The characters of a block of bytes that stands at `start`, and the bytes at its end that begin
a character without finishing it. -/
def decodeBlock (start : Nat) : Bytes → Except Fault (Text × Bytes)
  | [] => .ok ([], [])
  | b :: bs =>
    match h : head b bs with
    | .char c rest =>
      have := head_length h
      (decodeBlock (start + (bs.length + 1 - rest.length)) rest).map fun (t, left) => (c :: t, left)
    | .bad width reason => .error ⟨b, start, width, reason⟩
    | .short => .ok ([], b :: bs)
termination_by bs => bs.length
decreasing_by simp only [List.length_cons]; omega

/-- Reading that never fails: a byte that is no part of a character becomes the surrogate that
stands for it. -/
def decodeEscaped : Bytes → Text
  | [] => []
  | b :: bs =>
    match h : head b bs with
    | .char c rest =>
      have := head_length h
      c :: decodeEscaped rest
    | _ => (0xDC00 + b.toNat) :: decodeEscaped bs
termination_by bs => bs.length
decreasing_by all_goals simp only [List.length_cons]; omega

end Utf8

end RequestLog
