/-
A generator of requests from a log. It starts without a log, holds one while
it is ready, and once stopped stays so.

`produce` gives the next record that has a target, from the front again at
the end of the log. A generator that does not loop asks for a shutdown when
it wraps, and the request it is making still goes out.
-/
import RequestLog.Escape
import RequestLog.LogFile

namespace RequestLog

namespace Generator

/-- A generator that is stopped has let go of its log, if it had one. -/
inductive Stage where
  | uninitialized
  | ready (log : LogFile)
  | stopped (last : Option LogFile)
  deriving Repr, DecidableEq

def Stage.name : Stage → Text
  | .uninitialized => "uninitialized"
  | .ready _ => "ready"
  | .stopped _ => "stopped"

/-- The stage after a log is let go of, which closes it. -/
def Stage.left : Stage → Stage
  | .uninitialized => .stopped .none
  | .ready log => .stopped (.some log.close)
  | .stopped last => .stopped last

/-- Who is told when a generator asks for a shutdown. -/
inductive Listener where
  | nobody
  | observer
  | engine
  deriving Repr, DecidableEq

end Generator

structure Generator where
  path : Option Text := .none
  loop : Bool := false
  embedded : Bool := false
  verbose : Bool := false
  listener : Generator.Listener := .nobody
  stage : Generator.Stage := .uninitialized
  cursor : Nat := 0
  shutdown : Bool := false
  deriving Repr, DecidableEq

namespace Generator

/-- What a request to open a log may change; what it leaves out stays. -/
structure Change where
  path : Option Text := .none
  loop : Option Bool := .none
  embedded : Option Bool := .none
  deriving Repr, DecidableEq

def apply (g : Generator) (c : Change) : Generator :=
  { g with
    path := c.path.orElse fun _ => g.path
    loop := c.loop.getD g.loop
    embedded := c.embedded.getD g.embedded }

/-- Opens the log at the path, if there is one. -/
def openPath (t : Tree) : Option Text → Except Failure LogFile
  | .none => .error .noPath
  | .some path => if path.isEmpty then .error .noPath else LogFile.openAt t path

/-- Gets a generator ready. A change stays also where its log cannot be opened. -/
def openLog (g : Generator) (t : Tree) (c : Change) : Generator × Except Failure Notice :=
  match g.stage with
  | .uninitialized =>
    match openPath t (g.apply c).path with
    | .error f => (g.apply c, .error f)
    | .ok log =>
      ({ g.apply c with stage := .ready log, cursor := 0 }, .ok (.mapped log.path log.content.length))
  | stage => (g, .error (.wrongStage .openLog stage.name))

/-- What came of a request: the generator after it, how often it went on from the front of the log,
how many records it read, the notices that there is cause for, and the record with its header decoded. -/
structure Production where
  generator : Generator
  wraps : Nat := 0
  reads : Nat := 0
  notices : List Notice := []
  result : Except Failure Record

/-- How often a request asked for a shutdown: each time it wrapped, unless the log is looped. -/
def Production.asks (p : Production) : Nat := if p.generator.loop then 0 else p.wraps

/-- The notices of a request that are made on a level. -/
def Production.told (p : Production) (l : Level) : List Notice :=
  p.notices.filter fun n => !n.isGuarded || l.admits n.level

/-- The decoded header of a record; one that decodes to nothing is no header. -/
def decodeHeader (r : Record) : Noted (Option Bytes) :=
  match r.header with
  | .none => ⟨[], .none⟩
  | .some raw =>
    let d := Escape.unescape raw Escape.logSource
    ⟨d.notices ++ [.generated d.value r.target], if d.value.isEmpty then .none else .some d.value⟩

def produce (g : Generator) : Production :=
  match g.stage with
  | .ready log =>
    let s := Scan.seek log.content g.embedded g.cursor false
    let g' := { g with cursor := s.cursor, shutdown := g.shutdown || (0 < s.wraps && !g.loop) }
    match s.found with
    | .none => ⟨g', s.wraps, s.reads, [], .error (.noRecords log.path)⟩
    | .some r =>
      let header := decodeHeader r
      let access := if g.verbose then [Notice.accessing r.target] else []
      ⟨g', s.wraps, s.reads, header.notices ++ access, .ok ⟨r.target, header.value⟩⟩
  | stage => { generator := g, result := .error (.wrongStage .produce stage.name) }

/-- Closes the log, if there is one, and lets go of it for good. -/
def finalize (g : Generator) : Generator := { g with stage := g.stage.left }

end Generator

end RequestLog
