/-
An open log: its content at the time it was opened, until it is closed.
Reads of a closed log are refused.
-/
import RequestLog.Scan
import RequestLog.Tree

namespace RequestLog

structure LogFile where
  path : Text
  content : Bytes
  closed : Bool := false
  deriving Repr, DecidableEq

namespace LogFile

/-- Opens the log that a path leads to. A directory can be opened but not mapped, and an empty file
is no log. -/
def openAt (t : Tree) (path : Text) : Except Failure LogFile :=
  match t.lookup path with
  | .ok (.file content) => if content.isEmpty then .error (.emptyLog path) else .ok ⟨path, content, false⟩
  | .ok .directory => .error (.cannotMap path .noDevice)
  | .error (.refused f) => .error (.cannotOpen path f)
  | .error (.encoding f) => .error (.encoding f)
  | .error .nul => .error .nulInPath

/-- The content, as long as the log is open. -/
def bytes (l : LogFile) : Except Failure Bytes := if l.closed then .error .closed else .ok l.content

def size (l : LogFile) : Except Failure Nat := l.bytes.map (·.length)

/-- The bound of the numbers that count as places in a file. -/
def placeBound : Int := 0x8000000000000000

/-- Whether a number counts as a place in a file of some size. All places that are in the file do. -/
def isPlace (size : Nat) (i : Int) : Bool := (-placeBound ≤ i && i < placeBound) || (0 ≤ i && i < size)

/-- The first place at or after `start` at which `pattern` stands. -/
def find (l : LogFile) (pattern : Bytes) (start : Int) : Except Failure (Option Nat) :=
  l.bytes.bind fun bs => if isPlace bs.length start then .ok (bs.find pattern start) else .error .startTooLarge

/-- The byte at a place; a negative one counts from the end. -/
def get (l : LogFile) (index : Int) : Except Failure UInt8 :=
  l.bytes.bind fun bs =>
    if !isPlace bs.length index then .error .indexTooLarge
    else
      let i := if index < 0 then index + bs.length else index
      if i < 0 then .error .outside
      else match bs[i.toNat]? with
        | .some b => .ok b
        | .none => .error .outside

def slice (l : LogFile) (start stop : Option Int) : Except Failure Bytes :=
  l.bytes.map fun bs => bs.slice start stop

/-- Reads the record at a place: up to the next NUL, or up to the end. -/
def readAt (l : LogFile) (start : Int) (wrapped : Bool) : Except Failure Scan.Read := do
  let size ← l.size
  match ← l.find [terminator] start with
  | .none => return ⟨← l.slice (.some start) (.some size), size, wrapped⟩
  | .some stop => return ⟨← l.slice (.some start) (.some stop), stop + 1, wrapped⟩

/-- Reads the record at a cursor. -/
def next (l : LogFile) (cursor : Int) : Except Failure Scan.Read := do
  let size ← l.size
  if size ≤ cursor then l.readAt 0 true else l.readAt cursor false

def records (l : LogFile) : Except Failure (List Bytes) := l.bytes.map Scan.records

def close (l : LogFile) : LogFile := { l with closed := true }

end LogFile

end RequestLog
