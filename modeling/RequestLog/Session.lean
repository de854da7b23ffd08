/-
An engine with the generators and observers attached to it. The engine
builds calls: each starts with the engine's own headers and passes through
the handlers of the new-call event in the order of their attachment.

A session goes on by steps. A step that fails keeps what it had done by
then. A request for shutdown ends a run after the call being built.
-/
import RequestLog.Call
import RequestLog.Generator

namespace RequestLog

/-- A handler that adds a header to some calls and asks for a shutdown at some. -/
structure Observer where
  name : Text
  header : Call → Option Bytes
  stops : Call → Bool

inductive Handler where
  | generator (index : Nat)
  | observer (o : Observer)

/-- The event of a call being built. -/
def newCallEvent : Text := "call_new"

/-- What can be seen of a session from outside while a step goes on. -/
inductive Signal where
  | notice (n : Notice)
  | shutdown (generator : Nat)
  | seen (observer event : Text) (call : Call)
  deriving Repr, DecidableEq

/-- The notices among signals. -/
def Signal.notices (signals : List Signal) : List Notice :=
  signals.filterMap fun
    | .notice n => .some n
    | _ => .none

structure Session where
  tree : Tree
  generators : List Generator
  extra : List Bytes
  handlers : List (Text × Handler) := []
  stopping : Bool := false
  issued : List Call := []
  built : Nat := 0
  level : Level := .info

namespace Session

/-- The session after an operation, what was seen of it, and its result. -/
structure Reply (α : Type) where
  session : Session
  signals : List Signal
  result : Except Failure α

def withGenerator (s : Session) (i : Nat) (g : Generator) : Session :=
  { s with generators := s.generators.set i g }

/-- The generator with a number; there is one behind every number that a step names. -/
def generator (s : Session) (i : Nat) : Generator := s.generators[i]?.getD {}

/-- Takes the next record of a generator and passes a request for shutdown on. -/
def produce (s : Session) (i : Nat) : Reply Record :=
  let g := s.generator i
  let p := g.produce
  let asked := if g.listener == .observer then List.replicate p.asks (Signal.shutdown i) else []
  ⟨{ s.withGenerator i p.generator with stopping := s.stopping || (0 < p.asks && g.listener == .engine) },
    asked ++ (p.told s.level).map .notice, p.result⟩

/-- A call with what a record adds to it. -/
def fill (c : Call) (r : Record) : Call :=
  (match r.header with
    | .none => c
    | .some h => c.appendHeader h).setTarget r.target

/-- Passes a call through one handler. -/
def handle (s : Session) (event : Text) (c : Call) : Handler → Reply Call
  | .generator i =>
    let r := s.produce i
    ⟨r.session, r.signals, r.result.map (fill c)⟩
  | .observer o =>
    let c' := match o.header c with
      | .none => c
      | .some h => c.appendHeader h
    ⟨{ s with stopping := s.stopping || o.stops c }, [.seen o.name event c], .ok c'⟩

/-- Passes a call through handlers until one fails. -/
def handleAll (s : Session) (event : Text) (c : Call) : List Handler → Reply Call
  | [] => ⟨s, [], .ok c⟩
  | h :: hs =>
    let r := s.handle event c h
    match r.result with
    | .error f => ⟨r.session, r.signals, .error f⟩
    | .ok c' =>
      let r' := r.session.handleAll event c' hs
      ⟨r'.session, r.signals ++ r'.signals, r'.result⟩

/-- The handlers of an event, in the order of their attachment. -/
def handlersOf (s : Session) (event : Text) : List Handler :=
  (s.handlers.filter (·.1 == event)).map (·.2)

def fire (s : Session) (event : Text) (c : Call) : Reply Call :=
  s.handleAll event c (s.handlersOf event)

/-- Builds a call and issues it unless a handler fails; its number is used up in any case. -/
def newCall (s : Session) : Reply Call :=
  let id := s.built + 1
  let r := { s with built := id }.fire newCallEvent { id := id, headers := s.extra }
  match r.result with
  | .error f => ⟨r.session, r.signals, .error f⟩
  | .ok c => ⟨{ r.session with issued := r.session.issued ++ [c] }, r.signals, .ok c⟩

def attach (s : Session) (i : Nat) : Session :=
  { s.withGenerator i { s.generator i with listener := .engine } with
    handlers := s.handlers ++ [(newCallEvent, .generator i)] }

def finalize (s : Session) (i : Nat) : Session := s.withGenerator i (s.generator i).finalize

def openLog (s : Session) (i : Nat) (c : Generator.Change) : Reply Unit :=
  let (g, result) := (s.generator i).openLog s.tree c
  match result with
  | .error f => ⟨s.withGenerator i g, [], .error f⟩
  | .ok n => ⟨s.withGenerator i g, [.notice n], .ok ()⟩

/-- Gets a generator ready and attaches it. -/
def start (s : Session) (i : Nat) : Reply Unit :=
  let r := s.openLog i {}
  match r.result with
  | .error f => ⟨r.session, r.signals, .error f⟩
  | .ok () => ⟨r.session.attach i, r.signals, .ok ()⟩

/-- Whether no more calls are to be issued. -/
def isDone (s : Session) (count : Option Int) : Bool :=
  s.stopping || match count with
    | .none => false
    | .some m => m ≤ s.issued.length

/-- Issues calls until a shutdown is asked for or the count is reached. Calls issued before are
counted too. There is no reply if this has not ended after `fuel` calls. -/
def issue (count : Option Int) : (fuel : Nat) → Session → Option (Reply Unit)
  | 0, s => if s.isDone count then .some ⟨s, [], .ok ()⟩ else .none
  | fuel + 1, s =>
    if s.isDone count then .some ⟨s, [], .ok ()⟩
    else
      let r := s.newCall
      match r.result with
      | .error f => .some ⟨r.session, r.signals, .error f⟩
      | .ok _ => (issue count fuel r.session).map fun r' => { r' with signals := r.signals ++ r'.signals }

/-- Runs a generator: gets it ready, issues calls, and stops it however that ended. -/
def run (s : Session) (i : Nat) (count : Option Int) (fuel : Nat) : Option (Reply (List Call)) :=
  let r := s.start i
  match r.result with
  | .error f => .some ⟨r.session, r.signals, .error f⟩
  | .ok () => (issue count fuel r.session).map fun r' =>
    ⟨r'.session.finalize i, r.signals ++ r'.signals, r'.result.map fun _ => r'.session.issued⟩

/-! ## Steps -/

/-- What can be done with a session. A call that is fired by itself is a new one, with nothing but its
number: the engine fires a call only while it builds it, and what has been issued is not built again. -/
inductive Step where
  | openLog (generator : Nat) (change : Generator.Change)
  | produce (generator : Nat)
  | finalize (generator : Nat)
  | idle
  | attach (generator : Nat)
  | start (generator : Nat)
  | newCall
  | fire (event : Text) (id : Int)
  | run (generator : Nat) (count : Option Int)
  | shutdown
  | observe (event : Text) (o : Observer)
  | replace (way : Way) (content : Bytes)
  | level (name : Text)

inductive Answer where
  | done
  | record (r : Record)
  | call (c : Call)
  | calls (cs : List Call)

/-- A session after one step. There is no reply to a run that has not ended after `fuel` calls. -/
def step (fuel : Nat) (s : Session) : Step → Option (Reply Answer)
  | .openLog i c => .some (let r := s.openLog i c; ⟨r.session, r.signals, r.result.map fun _ => .done⟩)
  | .produce i => .some (let r := s.produce i; ⟨r.session, r.signals, r.result.map .record⟩)
  | .finalize i => .some ⟨s.finalize i, [], .ok .done⟩
  | .idle => .some ⟨s, [], .ok .done⟩
  | .attach i => .some ⟨s.attach i, [], .ok .done⟩
  | .start i => .some (let r := s.start i; ⟨r.session, r.signals, r.result.map fun _ => .done⟩)
  | .newCall => .some (let r := s.newCall; ⟨r.session, r.signals, r.result.map .call⟩)
  | .fire event id => .some (let r := s.fire event { id }; ⟨r.session, r.signals, r.result.map .call⟩)
  | .run i count => (s.run i count fuel).map fun r => ⟨r.session, r.signals, r.result.map .calls⟩
  | .shutdown => .some ⟨{ s with stopping := true }, [], .ok .done⟩
  | .observe event o => .some ⟨{ s with handlers := s.handlers ++ [(event, .observer o)] }, [], .ok .done⟩
  | .replace way content => .some ⟨{ s with tree := s.tree.add way (.file content) }, [], .ok .done⟩
  | .level name => .some (match Level.chosen name with
    | .error f => ⟨s, [], .error f⟩
    | .ok l => ⟨{ s with level := l }, [], .ok .done⟩)

/-- The lines that a session shows on its level. -/
def shown (l : Level) (signals : List Signal) : List Text :=
  Notice.shown l (Signal.notices signals)

end Session

end RequestLog
