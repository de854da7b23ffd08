/-
An outgoing request: where it goes, and the header bytes it takes along in
the order in which they were added.
-/
import RequestLog.Bytes

namespace RequestLog

structure Call where
  id : Int
  target : Option Bytes := .none
  headers : List Bytes := []
  deriving Repr, DecidableEq

namespace Call

/-- The part of some data that is used: all of it, or what is before an end. -/
def portion (data : Bytes) (stop : Option Int) : Bytes := data.slice .none stop

def setTarget (c : Call) (data : Bytes) (stop : Option Int := .none) : Call :=
  { c with target := .some (portion data stop) }

def appendHeader (c : Call) (data : Bytes) (stop : Option Int := .none) : Call :=
  { c with headers := c.headers ++ [portion data stop] }

/-- All header bytes in one. -/
def headerBlock (c : Call) : Bytes := c.headers.flatten

theorem setTarget_target (c : Call) (data : Bytes) : (c.setTarget data).target = .some data := by
  simp [setTarget, portion, Bytes.slice]

theorem appendHeader_headers (c : Call) (data : Bytes) : (c.appendHeader data).headers = c.headers ++ [data] := by
  simp [appendHeader, portion, Bytes.slice]

theorem headerBlock_appendHeader (c : Call) (data : Bytes) :
    (c.appendHeader data).headerBlock = c.headerBlock ++ data := by
  simp [headerBlock, appendHeader_headers]

end Call

end RequestLog
