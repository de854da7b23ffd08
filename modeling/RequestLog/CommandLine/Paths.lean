/-
The paths that an invocation leads to. Where a replay leads is in part only known
once its configuration has been read, so the paths depend on the tree.
-/
import RequestLog.CommandLine.Invocation
import RequestLog.Writer

namespace RequestLog.CommandLine.Invocation

def paths [Config.Reader] (t : Tree) (environment : Option Text) (token : Bytes) (v : Invocation) : List Text :=
  match v.command with
  | .replay o => (o.source? environment).toList ++ match o.resolve t environment with
    | .ok s => [s.file]
    | .error _ => []
  | .build b => b.input :: match b.output with
    | .some output => [output, Writer.temporaryPath t output token]
    | .none => []
  | .inspect i => [i.file]

end RequestLog.CommandLine.Invocation
