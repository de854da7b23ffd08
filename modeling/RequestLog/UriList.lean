/-
Lists of targets, one a line. Blank lines and lines that begin with `#` hold
none.
-/
import RequestLog.Datum

namespace RequestLog.UriList

/-- The target on a line. -/
def target? (line : Bytes) : Option Bytes :=
  match line.strip with
  | [] => .none
  | b :: bs => if b = 35 then .none else .some (b :: bs)

def targets (lines : List Bytes) : List Bytes := lines.filterMap target?

/-- The targets of lines that may have no bytes. -/
def targetsOf (lines : List Datum) : Except EncodeFault (List Bytes) := (Datum.allBytes lines).map targets

end RequestLog.UriList
