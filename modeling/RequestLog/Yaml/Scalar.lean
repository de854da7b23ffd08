/-
The tags and the values of scalars. The form of a plain scalar shows whether
it is a boolean, a number, a date, null or a sign of its own; if it has none
of these forms it is a text.

A scalar may also be given a tag whose form it does not have. It is read as
what the tag says even so, and has a value if that can be done.
-/
import RequestLog.Config.Value
import RequestLog.Yaml.Fault
import RequestLog.Yaml.Pattern
import RequestLog.Yaml.Tag

namespace RequestLog.Yaml.Scalar

open Config (NoValue Value)

/-! ## Forms -/

namespace Form

open Pattern

def digit : Pattern := range '0' '9'

def nonzero : Pattern := range '1' '9'

/-- Digits of a decimal number may have underscores among them. -/
def digitOrLine : Pattern := any [digit, char '_']

def sign : Pattern := opt (any [char '-', char '+'])

/-- The parts of a number in base sixty after the first. -/
def sixtieths : Pattern := some1 (all [char ':', opt (range '0' '5'), digit])

def exponent : Pattern := opt (all [any [char 'e', char 'E'], any [char '-', char '+'], some1 digit])

def trueWords : List String := ["yes", "Yes", "YES", "true", "True", "TRUE", "on", "On", "ON"]

def falseWords : List String := ["no", "No", "NO", "false", "False", "FALSE", "off", "Off", "OFF"]

def float : Pattern := any [
  all [sign, digit, many digitOrLine, char '.', many digitOrLine, exponent],
  all [char '.', digit, many digitOrLine, exponent],
  all [sign, digit, many digitOrLine, sixtieths, char '.', many digitOrLine],
  all [sign, char '.', words ["inf", "Inf", "INF"]],
  all [char '.', words ["nan", "NaN", "NAN"]]]

def hexDigit : Pattern := any [digit, range 'a' 'f', range 'A' 'F', char '_']

def int : Pattern := any [
  all [sign, word "0b", some1 (any [range '0' '1', char '_'])],
  all [sign, char '0', some1 (any [range '0' '7', char '_'])],
  all [sign, any [char '0', all [nonzero, many digitOrLine]]],
  all [sign, word "0x", some1 hexDigit],
  all [sign, nonzero, many digitOrLine, sixtieths]]

def null : Pattern := words ["~", "null", "Null", "NULL", ""]

/-- The indicators that are set apart for a kind of their own. -/
def reservedWords : List String := ["!", "&", "*"]

def isOneOf (ws : List String) (t : Text) : Bool := ws.any fun w => Text.ofString w == t

/-- The part of a scalar that its form is seen by: all of it but for one line feed at its end. A line
feed alone has no form. -/
def body (t : Text) : Text := if 1 < t.length && t.getLast? == .some 10 then t.dropLast else t

end Form

/-! ## Numbers -/

/-- A numeral without its sign, and whether that is a minus sign. -/
def takeSign : Text → Bool × Text
  | 45 :: rest => (true, rest)
  | 43 :: rest => (false, rest)
  | rest => (false, rest)

def withoutUnderscores (t : Text) : Text := t.filter (· != 95)

/-- The value of a digit: a decimal digit of any script, or a letter. -/
def digitValue (c : Nat) : Nat :=
  (Text.digit? c).getD
    (if 65 ≤ c && c ≤ 70 then c - 55 else if 97 ≤ c && c ≤ 102 then c - 87 else 16)

/-- A numeral without the sign of its base. -/
def dropBase (base : Nat) (t : Text) : Text :=
  let signs : List Text := if base = 2 then ["0b", "0B"] else if base = 8 then ["0o", "0O"]
    else if base = 16 then ["0x", "0X"] else []
  if signs.contains (t.take 2) then t.drop 2 else t

/-- The integer that a text stands for in a base; white space around it does not count. -/
def numeral (base : Nat) (t : Text) : Except NoValue Int :=
  let (negative, ds) := takeSign (t.trim Text.isPadding)
  let ds := (dropBase base ds).map digitValue
  let count := (ds.takeWhile (· < base)).length
  if base = 10 ∧ Text.maxDigits < count then .error (.tooManyDigits count)
  else if count = 0 ∨ count < ds.length then .error (.noDigits base t)
  else
    let n : Nat := Text.digitsValue base ds
    .ok (if negative then -n else n)

/-- The parts of a text between colons. -/
def parts : Text → List Text
  | [] => [[]]
  | c :: t =>
    if c = 58 then [] :: parts t
    else match parts t with
      | p :: ps => (c :: p) :: ps
      | [] => [[c]]

/-- The integer that a numeral without sign and underscores stands for. -/
def magnitude : Text → Except NoValue Int
  | [] => .error .noNumeral
  | 48 :: 98 :: ds => numeral 2 ds
  | 48 :: 120 :: ds => numeral 16 ds
  | 48 :: ds => numeral 8 (48 :: ds)
  | t => do
    let ns ← (parts t).mapM (numeral 10)
    return ns.foldl (fun n d => n * 60 + d) 0

def integer (t : Text) : Except NoValue Int := do
  let (negative, t) := takeSign (withoutUnderscores t)
  let n ← magnitude t
  return if negative then -n else n

/-- The sum of parts, the last first, each times a power of sixty; every step rounds. A power must be
in the range of the numbers, even for a part that is zero. -/
def sumSixtieths : (power : Nat) → Binary64 → List Binary64 → Except NoValue Binary64
  | _, sum, [] => .ok sum
  | power, sum, x :: xs =>
    match Binary64.ofInt power with
    | .infinite _ => .error .powerTooLarge
    | p => sumSixtieths (power * 60) (sum.add (x.mul p)) xs

/-- The number that one part of a numeral stands for. -/
def fractional (t : Text) : Except NoValue Binary64 :=
  match Binary64.read? t with
  | .some x => .ok x
  | .none => .error (.noNumber t)

/-- The number that a numeral in lower case, without sign and underscores, stands for. -/
def fractionalMagnitude (t : Text) : Except NoValue Binary64 :=
  if t == Text.ofString ".inf" then .ok (.infinite false)
  else if t == Text.ofString ".nan" then .ok .nan
  else match parts t with
    | [t] => fractional t
    | ps => do sumSixtieths 1 (.zero false) (← ps.mapM fractional).reverse

def floating (t : Text) : Except NoValue Binary64 := do
  let t := (withoutUnderscores t).lower
  if t.isEmpty then .error .noNumeral
  let (negative, t) := takeSign t
  let x ← fractionalMagnitude t
  return if negative then x.neg else x

/-! ## Dates and times -/

/-- Takes from one up to a number of digits. -/
def takeDigits? (most : Nat) (t : Text) : Option (Nat × Text) :=
  let ds := (t.take most).takeWhile fun c => 48 ≤ c && c ≤ 57
  if ds.isEmpty then .none else .some (Text.digitsValue 10 (ds.map (· - 48)), t.drop ds.length)

/-- Takes exactly a number of digits. -/
def takeExactly? (count : Nat) (t : Text) : Option (Nat × Text) := do
  let (n, rest) ← takeDigits? count t
  if rest.length + count = t.length then .some (n, rest) else .none

def expect? (c : Char) : Text → Option Text
  | [] => .none
  | d :: rest => if d == c.toNat then .some rest else .none

/-- A date or a time with numbers that may be out of range. -/
structure Reading where
  year : Nat
  month : Nat
  day : Nat
  time : Option (Nat × Nat × Nat × Nat × Option Int)

/-- A fraction of a second in millionths; further digits are dropped. -/
def takeFraction : Text → Nat × Text
  | 46 :: rest =>
    let ds := rest.takeWhile fun c => 48 ≤ c && c ≤ 57
    let six := (ds.map (· - 48) ++ List.replicate 6 0).take 6
    (Text.digitsValue 10 six, rest.drop ds.length)
  | rest => (0, rest)

def isBlank (c : Nat) : Bool := c == 32 || c == 9

/-- The offset at the end of a time, in minutes. -/
def offset? (t : Text) : Option (Option Int) :=
  if t.isEmpty then .some .none
  else match t.dropWhile isBlank with
    | [90] => .some (.some 0)
    | c :: rest => do
      if c != 43 && c != 45 then .none
      let (hours, rest) ← takeDigits? 2 rest
      let minutes ← match rest with
        | [] => .some 0
        | rest => do
          let (m, rest) ← takeExactly? 2 (← expect? ':' rest)
          if rest.isEmpty then .some m else .none
      let total : Int := hours * 60 + minutes
      return .some (if c == 45 then -total else total)
    | [] => .none

/-- What stands between a date and a time: one letter, or white space. -/
def skipSeparator? : Text → Option Text
  | [] => .none
  | c :: rest =>
    if c == 84 || c == 116 then .some rest
    else if isBlank c then .some (rest.dropWhile isBlank)
    else .none

def time? (t : Text) : Option (Nat × Nat × Nat × Nat × Option Int) := do
  let (hour, t) ← takeDigits? 2 t
  let (minute, t) ← takeExactly? 2 (← expect? ':' t)
  let (second, t) ← takeExactly? 2 (← expect? ':' t)
  let (micro, t) := takeFraction t
  return (hour, minute, second, micro, ← offset? t)

def reading? (t : Text) : Option Reading := do
  let (year, rest) ← takeExactly? 4 t
  let (month, rest) ← takeDigits? 2 (← expect? '-' rest)
  let (day, rest) ← takeDigits? 2 (← expect? '-' rest)
  if rest.isEmpty then return ⟨year, month, day, .none⟩
  else return ⟨year, month, day, .some (← time? (← skipSeparator? rest))⟩

/-- Whether a text has the form of a date or a time. A date alone has two digits for its month and its
day there; before a time one is enough. -/
def hasDateForm (t : Text) : Bool :=
  match reading? t with
  | .some r => r.time.isSome || t.length == 10
  | .none => false

/-- The date of a reading. -/
def date (r : Reading) : Except NoValue Date :=
  if r.year = 0 then .error (.year r.year)
  else if r.month = 0 || 12 < r.month then .error .month
  else if r.day = 0 || Date.daysInMonth r.year r.month < r.day then .error .day
  else .ok ⟨r.year, r.month, r.day⟩

/-- The offset in seconds, which must be less than a day. -/
def offset (minutes : Option Int) : Except NoValue (Option Int) :=
  match minutes with
  | .none => .ok .none
  | .some m =>
    if m.natAbs < 1440 then .ok (.some (m * 60))
    else .error (.offset (m.fdiv 1440) (m.fmod 1440 * 60).toNat)

def dateOrTime (r : Reading) : Except NoValue Value :=
  match r.time with
  | .none => (date r).map .date
  | .some (hour, minute, second, micro, minutes) => do
    let o ← offset minutes
    let d ← date r
    if 23 < hour then .error .hour
    else if 59 < minute then .error .minute
    else if 59 < second then .error .second
    else .ok (.time ⟨d, hour, minute, second, micro, o⟩)

/-- The date or the time that a text stands for. -/
def timestamp (t : Text) : Except NoValue Value :=
  match reading? (Form.body t) with
  | .some r => dateOrTime r
  | .none => .error .noDate

/-! ## All scalars -/

/-- The boolean that a word stands for, in any case. -/
def boolean (t : Text) : Except NoValue Bool :=
  if Form.isOneOf Form.trueWords t.lower then .ok true
  else if Form.isOneOf Form.falseWords t.lower then .ok false
  else .error (.noWord t.lower)

/-- The tag that the form of a plain scalar shows. -/
def tagOf (t : Text) : Tag :=
  let body := Form.body t
  if Form.isOneOf (Form.trueWords ++ Form.falseWords) body then .bool
  else if Form.float.accepts body then .float
  else if Form.int.accepts body then .int
  else if Form.null.accepts body then .null
  else if hasDateForm body then .timestamp
  else if body == [60, 60] then .merge
  else if body == [61] then .default
  else if Form.isOneOf Form.reservedWords body then .other
  else .text

/-- The value of a scalar as what a tag of scalars says. -/
def value (tag : Tag) (t : Text) : Except NoValue Value :=
  match tag with
  | .null => .ok .null
  | .bool => (boolean t).map .bool
  | .int => (integer t).map .int
  | .float => (floating t).map .float
  | .timestamp => timestamp t
  | _ => .ok (.text t)

end RequestLog.Yaml.Scalar
