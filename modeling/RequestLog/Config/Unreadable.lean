/-
Why the content of a file has no value: it is malformed, a part of it has
the form of a value that does not exist, or its bytes stand for no text.
-/
import RequestLog.Text.Quoted
import RequestLog.Utf8

namespace RequestLog.Config

/-- Why a scalar has no value, though it has the form or the name of one. -/
inductive NoValue where
  | noDigits (base : Nat) (given : Text)
  | tooManyDigits (digits : Nat)
  | noNumber (given : Text)
  | powerTooLarge
  | noNumeral
  | noWord (given : Text)
  | noCharacter
  | characterTooLarge
  | noDate
  | year (n : Nat)
  | month
  | day
  | hour
  | minute
  | second
  | offset (days : Int) (seconds : Nat)
  deriving Repr, DecidableEq

def NoValue.message : NoValue → Text
  | .noDigits base given =>
    "invalid literal for int() with base " ++ Text.ofNat base ++ ": " ++ given.quoted
  | .tooManyDigits n =>
    "Exceeds the limit (4300 digits) for integer string conversion: value has " ++ Text.ofNat n ++
      " digits; use sys.set_int_max_str_digits() to increase the limit"
  | .noNumber given => "could not convert string to float: " ++ given.quoted
  | .powerTooLarge => "int too large to convert to float"
  | .noNumeral => "string index out of range"
  | .noWord given => given.quoted
  | .noCharacter => "chr() arg not in range(0x110000)"
  | .characterTooLarge => "Python int too large to convert to C int"
  | .noDate => "'NoneType' object has no attribute 'groupdict'"
  | .year n => "year " ++ Text.ofNat n ++ " is out of range"
  | .month => "month must be in 1..12"
  | .day => "day is out of range for month"
  | .hour => "hour must be in 0..23"
  | .minute => "minute must be in 0..59"
  | .second => "second must be in 0..59"
  | .offset days seconds =>
    let more : Text := if seconds = 0 then [] else ", seconds=" ++ Text.ofNat seconds
    "offset must be a timedelta strictly between -timedelta(hours=24) and timedelta(hours=24), not " ++
      "datetime.timedelta(days=" ++ Text.ofInt days ++ more ++ ")."

/-- What is wrong with the content of a file. Why it is malformed is said in the words of whoever reads
it. -/
inductive Unreadable where
  | malformed (reason : Text)
  | noValue (reason : NoValue)
  | undecodable (fault : Utf8.Fault)
  deriving Repr, DecidableEq

end RequestLog.Config
