/-
What a command line asks for: how much to report, and one of three commands.
A replay prints the calls that a log makes, a build writes a log, and an
inspection lists the records of a log.
-/
import RequestLog.CommandLine.Reading
import RequestLog.Config.Override
import RequestLog.Notice

namespace RequestLog.CommandLine

/-- What the input of a build is. A list of targets is the usual one. -/
inductive Format where
  | uriList
  | accessLog
  deriving Repr, DecidableEq

structure Build where
  format : Format := .uriList
  methods : List (Option Text) := []
  input : Text := []
  output : Option Text := .none
  deriving Repr, DecidableEq

structure Inspection where
  file : Text := []
  embedded : Bool := false
  limit : Option Int := .some 20
  deriving Repr, DecidableEq

inductive Command where
  | replay (o : Config.Override)
  | build (b : Build)
  | inspect (i : Inspection)
  deriving Repr, DecidableEq

structure Invocation where
  verbose : Nat
  quiet : Bool
  command : Command
  deriving Repr, DecidableEq

/-! ## Grammars -/

def replayGrammar : Grammar Config.Override where
  program := "wlog replay"
  switches := [
    ⟨["--config"], .text fun t o => { o with file := t }⟩,
    ⟨["--wlog"], .text fun t o => { o with log := t }⟩,
    ⟨["--embedded-http-headers"], .mark fun o => { o with embedded := true }⟩,
    ⟨["--add-header"], .text fun t o => { o with addHeader := o.addHeader ++ [t] }⟩,
    ⟨["--num-calls"], .integer fun n o => { o with numCalls := .some n }⟩]
  operands := []

def formats : List (Text × Format) := [("uris", .uriList), ("clf", .accessLog)]

def buildGrammar : Grammar Build where
  program := "wlog build"
  switches := [
    ⟨["--format"], .choice formats fun f b => { b with format := f.getD .uriList }⟩,
    ⟨["--method"], .text fun t b => { b with methods := b.methods ++ [t] }⟩]
  operands := [
    .word "input" fun t b => { b with input := t.getD [] },
    .word "output" fun t b => { b with output := t }]

def inspectGrammar : Grammar Inspection where
  program := "wlog inspect"
  switches := [
    ⟨["--embedded-http-headers"], .mark fun i => { i with embedded := true }⟩,
    ⟨["--limit"], .integer fun n i => { i with limit := n }⟩]
  operands := [.word "file" fun t i => { i with file := t.getD [] }]

/-- The words of a command and of what it takes, up to those that nothing took. -/
def Command.ofWords {α : Type} (g : Grammar α) (a : α) (make : α → Command) (words : List Text) :
    Except Stop (Command × List Text) :=
  (g.read words a).map fun r => (make r.1, r.2)

/-- The commands by name. -/
def commands : List (Text × (List Text → Except Stop (Command × List Text))) := [
  ("replay", Command.ofWords replayGrammar {} .replay),
  ("build", Command.ofWords buildGrammar {} .build),
  ("inspect", Command.ofWords inspectGrammar {} .inspect)]

/-- The name of the whole program. -/
def program : Text := "wlog"

/-- The operand that names a command. -/
def commandName : Text := "command"

/-- An invocation whose command may still be to come. -/
structure Draft where
  verbose : Nat := 0
  quiet : Bool := false
  command : Option Command := .none
  deriving Repr, DecidableEq

def Draft.takeCommand (word : Text) (words : List Text) (d : Draft) : Except Stop (Draft × List Text) := do
  let read ← (choose commands word).mapError fun o => .rejected program (.argument commandName o)
  let (c, left) ← read words
  return ({ d with command := .some c }, left)

def grammar : Grammar Draft where
  program := program
  switches := [
    ⟨["--verbose", "-v"], .mark fun d => { d with verbose := d.verbose + 1 }⟩,
    ⟨["--quiet"], .mark fun d => { d with quiet := true }⟩]
  operands := [.rest commandName Draft.takeCommand]

namespace Invocation

/-- The invocation that words make, if they are all taken. -/
def ofWords (words : List Text) : Except Stop Invocation := do
  let (d, left) ← grammar.read words {}
  if !left.isEmpty then .error (.rejected program (.unknown left))
  match d.command with
  | .none => .error (.rejected program (.missing [commandName]))
  | .some (.replay o) => return ⟨d.verbose, d.quiet, .replay { o with verbose := d.verbose }⟩
  | .some c => return ⟨d.verbose, d.quiet, c⟩

/-- The level that an invocation sets. -/
def level (v : Invocation) : Level :=
  if v.quiet then .error else if 2 ≤ v.verbose then .debug else .info

end Invocation

end RequestLog.CommandLine
