/-
Records of a log: a target and, ahead of it, an optional header text that
ends at the first control-A byte.

`split` reads a record, and `encode` writes one with the NUL that ends it.
-/
import RequestLog.Datum
import RequestLog.Failure

namespace RequestLog

/-- The byte that ends a record. -/
abbrev terminator : UInt8 := 0

/-- The byte that ends the header text of a record. -/
abbrev sentinel : UInt8 := 1

structure Record where
  target : Bytes
  header : Option Bytes := .none
  deriving Repr, DecidableEq

namespace Record

/-- Without embedded headers, and without a sentinel, all of a record is its target. -/
def split (embedded : Bool) (bs : Bytes) : Record :=
  if embedded then
    match bs.cutAt sentinel with
    | (header, .some target) => ⟨target, .some header⟩
    | (_, .none) => ⟨bs, .none⟩
  else ⟨bs, .none⟩

/-- A target can be written if it is not empty and does not end early. -/
def checkTarget (target : Bytes) : Except Failure Bytes :=
  if target.isEmpty || target.contains terminator then .error (.invalidTarget target) else .ok target

/-- A header text can be written if it ends neither itself nor its record early. -/
def checkHeader (header : Bytes) : Except Failure Bytes :=
  if header.contains terminator || header.contains sentinel then .error (.invalidHeader header)
  else .ok header

/-- A record as it stands in a log. -/
def spelling : Record → Bytes
  | ⟨target, .none⟩ => target ++ [terminator]
  | ⟨target, .some header⟩ => header ++ sentinel :: target ++ [terminator]

/-- The record of a target and a header text; the target is looked at first. -/
def compose (target : Datum) (header : Option Datum) : Except Failure Record := do
  let t ← checkTarget (← target.toBytes.mapError .encoding)
  match header with
  | .none => .ok ⟨t, .none⟩
  | .some h => .ok ⟨t, .some (← checkHeader (← h.toBytes.mapError .encoding))⟩

/-- Writes a record. -/
def encode (target : Datum) (header : Option Datum) : Except Failure Bytes :=
  (compose target header).map spelling

end Record

end RequestLog
