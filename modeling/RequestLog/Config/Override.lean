/-
What a command line sets beside a configuration. A choice of a log or of a
number of calls goes before that of the configuration, headers come after
those of the configuration, and of two verbosities the higher one counts.
-/
import RequestLog.Config.File

namespace RequestLog.Config

/-- A choice of headers or of a number of calls may lack a value. -/
structure Override where
  file : Option Text := .none
  log : Option Text := .none
  embedded : Bool := false
  addHeader : List (Option Text) := []
  numCalls : Option (Option Int) := .none
  verbose : Nat := 0
  deriving Repr, DecidableEq

namespace Override

/-- A text that was given and is not empty. -/
def given (t : Option Text) : Option Text := t.filter (!·.isEmpty)

/-- The file of the configuration to begin with: the one that is named, or else the one that the
environment names. -/
def source? (o : Override) (environment : Option Text) : Option Text :=
  (given o.file).orElse fun _ => given environment

/-- The configuration to begin with, which is empty if there is no file. -/
def base [Reader] (o : Override) (t : Tree) (environment : Option Text) : Except Failure Mapping :=
  match o.source? environment with
  | .some path => load t path
  | .none => .ok []

/-- The section with the choice of a log. -/
def setLog (o : Override) (s : Mapping) : Except Failure Mapping :=
  match given o.log with
  | .none => .ok s
  | .some t => (parseOption t).map fun (loop, path) =>
    (s.insert (.text fileField) (.text path)).insert (.text loopField) (.bool loop)

def setEmbedded (o : Override) (s : Mapping) : Mapping :=
  if o.embedded then s.insert (.text embeddedField) (.bool true) else s

/-- The value of a choice; a choice without one counts as an empty list. -/
def chosen {α : Type} (make : α → Value) (a : Option α) : Value := (a.map make).getD (.list [])

def setHeaders (o : Override) (m : Mapping) : Mapping :=
  if o.addHeader.isEmpty then m
  else
    let before := match m.field headerField with
      | .list vs => vs
      | _ => []
    m.insert (.text headerField) (.list (before ++ o.addHeader.map (chosen .text)))

def setCalls (o : Override) (m : Mapping) : Mapping :=
  match o.numCalls with
  | .none => m
  | .some n => m.insert (.text callsField) (chosen .int n)

def setVerbose (o : Override) (m : Mapping) : Mapping :=
  if o.verbose = 0 then m
  else
    let before := ((m.field verboseField).integer?).getD 0
    m.insert (.text verboseField) (.int (max before o.verbose))

/-- The settings of a configuration with what the command line sets. -/
def resolve [Reader] (o : Override) (t : Tree) (environment : Option Text) : Except Failure Settings := do
  let m ← o.base t environment
  let s := o.setEmbedded (← o.setLog (sectionOf m))
  let m := o.setVerbose (o.setCalls (o.setHeaders (m.insert (.text wlogField) (.map s))))
  if (s.field fileField).isVoid then .error (.refused .noLog)
  settings (.map m)

end Override

end RequestLog.Config
