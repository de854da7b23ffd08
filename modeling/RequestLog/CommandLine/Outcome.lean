/-
Carrying out a command on a tree of files. An outcome holds all notices; its
level chooses which of them are shown. A command prints lines only if it
succeeds.

Printing itself is assumed not to fail. Configurations are read by any reader;
the one that the program comes with is `Yaml.reader`.
-/
import RequestLog.AccessLog
import RequestLog.Bytes.Visible
import RequestLog.CommandLine.Invocation
import RequestLog.DryRun
import RequestLog.UriList
import RequestLog.Writer
import RequestLog.Yaml.Document

namespace RequestLog.CommandLine

structure Outcome where
  tree : Tree
  level : Level
  notices : List Notice
  result : Except Failure (List Text)

namespace Outcome

/-- The exit code of a failure; some failures have none and are passed on to whoever ran the
command. -/
def exitCodeOf (f : Failure) : Option Int :=
  match f.fatal? with
  | .some x => .some x.exitCode
  | .none => if f.isSystem then .some FatalKind.general.exitCode else .none

def exitCode? (o : Outcome) : Option Int :=
  match o.result with
  | .ok _ => .some 0
  | .error f => exitCodeOf f

/-- The lines on standard output. -/
def printed (o : Outcome) : List Text :=
  match o.result with
  | .ok ls => ls
  | .error _ => []

/-- The line that tells of a failure with an exit code. -/
def closing (o : Outcome) : List Text :=
  match o.result with
  | .ok _ => []
  | .error f => if (exitCodeOf f).isSome then ["wlog: " ++ f.message] else []

/-- The lines on standard error. -/
def reported (o : Outcome) : List Text := Notice.shown o.level o.notices ++ o.closing

end Outcome

/-! ## Replay -/

/-- The line of a call: its number, its target, and its headers if it has some. -/
def callLine (c : Call) : Text :=
  Text.ofInt c.id ++ 9 :: (c.target.getD []).visible ++
    if c.headers.isEmpty then [] else 9 :: c.headerBlock.visible

/-- What settings make of a log. -/
def replaySettings (t : Tree) (level : Level) (s : Config.Settings) : Outcome :=
  let extra := Config.Settings.extraHeaders s.addHeader
  match extra.value with
  | .error f => ⟨t, level, extra.notices, .error f⟩
  | .ok headers =>
    match DryRun.run t level s headers with
    | .none => ⟨t, level, extra.notices, .error (.refused .endless)⟩
    | .some r =>
      let notices := extra.notices ++ Signal.notices r.signals
      match r.result with
      | .error f => ⟨t, level, notices, .error f⟩
      | .ok calls => ⟨t, level, notices ++ [.issued calls.length], .ok (calls.map callLine)⟩

def replay [Config.Reader] (t : Tree) (environment : Option Text) (v : Invocation) (o : Config.Override) : Outcome :=
  match o.resolve t environment with
  | .error f => ⟨t, v.level, [], .error f⟩
  | .ok s =>
    if s.loop && s.numCalls.isNone then ⟨t, v.level, [], .error (.refused .endless)⟩
    else replaySettings t (if 2 ≤ s.verbose && !v.quiet then .debug else v.level) s

/-! ## Build -/

/-- What there is on the lines of an input. -/
def findingsOf (b : Build) (lines : List Bytes) : Except Failure (List AccessLog.Finding) :=
  match b.format with
  | .uriList => .ok ((UriList.targets lines).map .target)
  | .accessLog => match Datum.allBytes ((b.methods.filterMap id).map .text) with
    | .error f => .error (.encoding f)
    | .ok wanted => .ok (AccessLog.findings wanted lines)

/-- Writes findings to a log; gives the notices up to where the writing ended. -/
def writeFindings (t : Tree) (output : Text) (token : Bytes) (found : Except Failure (List AccessLog.Finding)) :
    Tree × List Notice × Except Failure Nat :=
  match Writer.directoryFor t output token, found with
  | .error f, _ => (t, [], .error f)
  | .ok _, .error f => (t, [], .error f)
  | .ok _, .ok fs =>
    let records := Writer.pairs ((fs.filterMap AccessLog.Finding.target?).map .bytes) .none
    let (t', result) := Writer.write t output token records
    (t', AccessLog.Finding.noticesBefore (Writer.encodeAll records).2.1 fs, result)

/-- A failure as that of an input, unless the file system refused. -/
def unfit (input : Text) (f : Failure) : Failure := if f.isSystem then f else .unfit input f

/-- What goes in and comes out of a build, if the input can be read and no choice lacks its value. -/
def endsOf (t : Tree) (b : Build) : Except Failure (Bytes × Text) := do
  let content ← t.read b.input
  if b.format = .accessLog ∧ .none ∈ b.methods then .error .noMethod
  match b.output with
  | .none => .error .noOutput
  | .some output => return (content, output)

/-- Writes a log. The closing line names the output, whose name is assumed to have bytes in the encoding of
standard output. -/
def build (t : Tree) (token : Bytes) (level : Level) (b : Build) : Outcome :=
  match endsOf t b with
  | .error f => ⟨t, level, [], .error f⟩
  | .ok (content, output) =>
    let (t', notices, result) := writeFindings t output token (findingsOf b content.lines)
    ⟨t', level, notices, match result with
      | .error f => .error (unfit b.input f)
      | .ok n => .ok ["wrote " ++ Text.ofNat n ++ " records to " ++ output]⟩

/-! ## Inspect -/

/-- The line of a record, with its header in brackets if it has one. -/
def recordLine (r : Record) : Text :=
  (match r.header with
    | .none => []
    | .some h => 91 :: h.visible ++ [93, 32]) ++ r.target.visible

/-- What an inspection has come to: how many records it went through, how many of them had no target,
and the lines of those it listed. -/
structure Listing where
  total : Nat := 0
  empty : Nat := 0
  lines : List Text := []
  deriving Repr, DecidableEq

namespace Listing

/-- Goes through one record. One with a target is listed unless it is past the limit, which has to have a
value by then. -/
def add (embedded : Bool) (limit : Option Int) (l : Listing) (data : Bytes) : Except Failure Listing :=
  let l := { l with total := l.total + 1 }
  let r := Record.split embedded data
  if r.target.isEmpty then .ok { l with empty := l.empty + 1 }
  else match limit with
    | .none => .error .noLimit
    | .some n => .ok (if (l.total : Int) - l.empty ≤ n then { l with lines := l.lines ++ [recordLine r] } else l)

end Listing

/-- The line with the counts of a log. -/
def countsLine (records untargeted size : Nat) : Text :=
  "records: " ++ Text.ofNat records ++ " empty: " ++ Text.ofNat untargeted ++ " bytes: " ++ Text.ofNat size

/-- The lines of a log: those of its records, and one with counts. -/
def inspectLog (i : Inspection) (log : LogFile) : Except Failure (List Text) := do
  let l ← (← log.records).foldlM (Listing.add i.embedded i.limit) {}
  return l.lines ++ [countsLine l.total l.empty log.content.length]

def inspect (t : Tree) (level : Level) (i : Inspection) : Outcome :=
  match LogFile.openAt t i.file with
  | .error f => ⟨t, level, [], .error f⟩
  | .ok log => ⟨t, level, [], inspectLog i log⟩

/-! ## All commands -/

namespace Invocation

/-- Carries out an invocation. -/
def perform [Config.Reader] (t : Tree) (environment : Option Text) (token : Bytes) (v : Invocation) : Outcome :=
  match v.command with
  | .replay o => replay t environment v o
  | .build b => build t token v.level b
  | .inspect i => inspect t v.level i

end Invocation

/-- Carries out the words of a command line. -/
def run [Config.Reader] (t : Tree) (environment : Option Text) (token : Bytes) (words : List Text) :
    Except Stop Outcome :=
  (Invocation.ofWords words).map (·.perform t environment token)

end RequestLog.CommandLine
