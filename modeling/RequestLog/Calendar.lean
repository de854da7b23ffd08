/-
Dates and times of the Gregorian calendar, with the three texts they have:
the one that standards give, the one for display, which differs in the mark
before the time, and the quoted one in messages.
-/
import RequestLog.Text

namespace RequestLog

structure Date where
  year : Nat
  month : Nat
  day : Nat
  deriving Repr, DecidableEq

/-- A time of day on a date; an offset is in seconds east of Greenwich. -/
structure Timestamp where
  date : Date
  hour : Nat
  minute : Nat
  second : Nat
  micro : Nat
  offset : Option Int
  deriving Repr, DecidableEq

namespace Date

def isLeap (year : Nat) : Bool := year % 4 == 0 && (year % 100 != 0 || year % 400 == 0)

def daysInMonth (year month : Nat) : Nat :=
  if month == 2 then (if isLeap year then 29 else 28)
  else if month == 4 || month == 6 || month == 9 || month == 11 then 30
  else 31

/-- The number of the day, counted from the first day of year 1. -/
def ordinal (d : Date) : Nat :=
  let y := d.year - 1
  365 * y + y / 4 - y / 100 + y / 400 +
    (List.range (d.month - 1)).foldl (fun n m => n + daysInMonth d.year (m + 1)) 0 + d.day

/-- A number with zeros before it up to a width. -/
def padded (width n : Nat) : Text :=
  let t := Text.ofNat n
  List.replicate (width - t.length) 48 ++ t

def text (d : Date) : Text := padded 4 d.year ++ "-" ++ padded 2 d.month ++ "-" ++ padded 2 d.day

def quoted (d : Date) : Text :=
  "datetime.date(" ++ Text.ofNat d.year ++ ", " ++ Text.ofNat d.month ++ ", " ++ Text.ofNat d.day ++ ")"

end Date

namespace Timestamp

def offsetText (seconds : Int) : Text :=
  let sign : Text := if seconds < 0 then "-" else "+"
  let minutes := seconds.natAbs / 60
  sign ++ Date.padded 2 (minutes / 60) ++ ":" ++ Date.padded 2 (minutes % 60)

/-- The text with a mark between the date and the time. -/
def textWith (mark : Text) (t : Timestamp) : Text :=
  let fraction : Text := if t.micro = 0 then [] else "." ++ Date.padded 6 t.micro
  t.date.text ++ mark ++ Date.padded 2 t.hour ++ ":" ++ Date.padded 2 t.minute ++ ":" ++
    Date.padded 2 t.second ++ fraction ++ (t.offset.map offsetText).getD []

def standardText : Timestamp → Text := textWith "T"

def text : Timestamp → Text := textWith " "

/-- An offset is quoted in days, of which only a negative one has any, and seconds. -/
def quotedOffset (seconds : Int) : Text :=
  if seconds = 0 then "datetime.timezone.utc"
  else
    let days : Text := if seconds < 0 then "days=-1, " else []
    "datetime.timezone(datetime.timedelta(" ++ days ++ "seconds=" ++ Text.ofInt (seconds % 86400) ++ "))"

/-- Zero seconds are left out where no fraction follows them. -/
def quoted (t : Timestamp) : Text :=
  let time := [t.hour, t.minute] ++
    (if t.second = 0 && t.micro = 0 then [] else if t.micro = 0 then [t.second] else [t.second, t.micro])
  let zone : Text := match t.offset with
    | .none => []
    | .some s => ", tzinfo=" ++ quotedOffset s
  "datetime.datetime(" ++
    Text.join ", " (([t.date.year, t.date.month, t.date.day] ++ time).map Text.ofNat) ++ zone ++ ")"

/-- Microseconds since the first day of year 1, at Greenwich. -/
def instant (t : Timestamp) : Int :=
  (((t.date.ordinal * 24 + t.hour) * 60 + t.minute) * 60 + t.second - t.offset.getD 0) * 1000000 + t.micro

/-- Whether two times are the same; one with an offset is never the same as one without. -/
def same (a b : Timestamp) : Bool := a.offset.isSome == b.offset.isSome && a.instant == b.instant

end Timestamp

end RequestLog
