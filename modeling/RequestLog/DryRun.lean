/-
Dry runs: the calls that settings make from a log, with no client to send
them.
-/
import RequestLog.Config.Settings
import RequestLog.Session

namespace RequestLog.DryRun

def generator (s : Config.Settings) : Generator :=
  { path := .some s.file, loop := s.loop, embedded := s.embedded, verbose := 0 < s.verbose }

/-- A number of calls by which a run ends that ends at all: the number asked for, or else one more
than a log of its size has records. -/
def enough (t : Tree) (s : Config.Settings) : Nat :=
  match s.numCalls with
  | .some n => n
  | .none => match t.read s.file with
    | .ok bs => bs.length + 1
    | .error _ => 0

/-- The run of settings on a level, with headers that every call gets, if it ends. -/
def run (t : Tree) (level : Level) (s : Config.Settings) (headers : List Bytes) :
    Option (Session.Reply (List Call)) :=
  Session.run { tree := t, generators := [generator s], extra := headers, level := level } 0
    (s.numCalls.map (↑·)) (enough t s)

end RequestLog.DryRun
