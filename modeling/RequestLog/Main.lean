/-
The program. It looks at what the words of its command line lead to, carries
the words out on a tree of that, and writes down what has changed.
-/
import RequestLog.CommandLine.Outcome
import RequestLog.CommandLine.Paths

namespace RequestLog.Main

open CommandLine (Invocation Outcome)

/-! ## Files -/

def nameOf (way : Way) : String := (Tree.wayText way).display

/-- What is found at the end of a way in a directory. -/
def look (way : Way) : IO (Option Tree.Node) := do
  match ← (IO.FS.readBinFile (nameOf way)).toBaseIO with
  | .ok content => return .some (.file content.toList)
  | .error (.inappropriateType ..) => return .some .directory
  | .error _ => return .none

/-- The tree with what a path leads past, as far as it goes. -/
def visit (t : Tree) (path : Text) : IO Tree := do
  match Tree.pathBytes path with
  | .error _ => return t
  | .ok bs => (t.waysOf bs).foldlM (fun t way => do
    if t.get? way.dropLast != .some .directory then return t
    match ← look way with
    | .some node => return t.put way node
    | .none => return t) t

def visitAll (t : Tree) (paths : List Text) : IO Tree := paths.foldlM visit t

/-- Puts a file in its place all at once. -/
def store (token : Bytes) (way : Way) (content : Bytes) : IO Unit := do
  let temporary := nameOf (way.dropLast ++ [Writer.stem token])
  IO.FS.writeBinFile temporary ⟨content.toArray⟩
  IO.FS.rename temporary (nameOf way)

def storeChanges (token : Bytes) (before after : Tree) : IO Unit :=
  after.entries.forM fun (way, node) => match node with
    | .file content => if before.get? way == .some node then return () else store token way content
    | .directory => return ()

/-! ## Running -/

def say (lines : List Text) : IO Unit := lines.forM fun l => IO.println l.display

def warn (lines : List Text) : IO Unit := lines.forM fun l => IO.eprintln l.display

def workingDirectory : IO Way := do
  return Tree.names (← IO.currentDir).toString.toUTF8.toList

/-- A name that no other run of the program has at the same time. -/
def freshToken : IO Bytes := do
  return (toString (← IO.monoNanosNow)).toUTF8.toList

def finish (o : Outcome) : IO Int := do
  say o.printed
  warn o.reported
  match o.exitCode?, o.result with
  | .some code, _ => return code
  | .none, .error f => do warn [f.message]; return 1
  | .none, .ok _ => return 0

def carryOut (v : Invocation) : IO Int := do
  let environment := (← IO.getEnv "WLOG_CONFIG").map Text.ofString
  let token ← freshToken
  let empty : Tree := ⟨← workingDirectory, []⟩
  let first ← visitAll empty (v.paths empty environment token)
  let tree ← visitAll first (v.paths first environment token)
  let o := v.perform tree environment token
  storeChanges token tree o.tree
  finish o

end RequestLog.Main

def main (words : List String) : IO UInt32 := do
  match RequestLog.CommandLine.Invocation.ofWords (words.map RequestLog.Text.ofString) with
  | .ok v => return (← RequestLog.Main.carryOut v).toNat.toUInt32
  | .error s => do
    RequestLog.Main.warn s.complaint?.toList
    return s.exitCode.toNat.toUInt32
