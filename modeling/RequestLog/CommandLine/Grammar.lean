/-
What a program takes on its command line. A switch has one or more names, of
one dash and a character or of two dashes and a word, and may take an
argument. Operands stand in a fixed order; the last may take all the words
from its own on. An argument or an operand that is only a divider has no
value.

Reading the words turns one value into another: each switch and each operand
changes what was there before it.
-/
import RequestLog.CommandLine.Rejection
import RequestLog.Text.DecimalDigit

namespace RequestLog.CommandLine

abbrev dash : Nat := 45

/-- The word after which there are only operands. -/
def divider : Text := [dash, dash]

/-- The value of an argument. One that is only a divider is taken for that, even where it is joined to
its switch, and so has no value. Parsers of command lines differ in this; the one assumed here has it so. -/
def argumentValue (t : Text) : Option Text := if t == divider then .none else .some t

/-- What a switch does. -/
inductive Effect (α : Type) where
  | help
  | mark (f : α → α)
  | argument (f : Option Text → α → Except Objection α)

structure Switch (α : Type) where
  names : List Text
  effect : Effect α

/-- What an operand does. -/
inductive Operand (α : Type) where
  | word (name : Text) (f : Option Text → α → α)
  | rest (name : Text) (f : Text → List Text → α → Except Stop (α × List Text))

def Operand.name {α : Type} : Operand α → Text
  | .word name _ => name
  | .rest name _ => name

structure Grammar (α : Type) where
  program : Text
  switches : List (Switch α)
  operands : List (Operand α)

namespace Switch

def takesArgument {α : Type} (s : Switch α) : Bool :=
  match s.effect with
  | .argument _ => true
  | _ => false

/-- All names of a switch, as complaints show it. -/
def title {α : Type} (s : Switch α) : Text := Text.join "/" s.names

def object {α : Type} (s : Switch α) (o : Objection) : Rejection := .argument s.title o

/-- The effect of a switch in a program. -/
def apply {α : Type} (s : Switch α) (program : Text) (argument : Option Text) (a : α) : Except Stop α :=
  match s.effect, argument with
  | .help, _ => .error (.help program)
  | .mark f, _ => .ok (f a)
  | .argument f, .some t => (f (argumentValue t) a).mapError fun o => .rejected program (s.object o)
  | .argument _, .none => .error (.rejected program (s.object .missing))

end Switch

namespace Grammar

/-- The switch that every program has. -/
def helpSwitch {α : Type} : Switch α := ⟨["-h", "--help"], .help⟩

/-- The names of all switches, each with its switch. -/
def named {α : Type} (g : Grammar α) : List (Text × Switch α) :=
  (helpSwitch :: g.switches).flatMap fun s => s.names.map fun n => (n, s)

/-- The switch of a name. -/
def find? {α : Type} (g : Grammar α) (name : Text) : Option (Switch α) :=
  (g.named.find? (·.1 == name)).map (·.2)

/-- The names that begin with a word, each with its switch. -/
def completions {α : Type} (g : Grammar α) (word : Text) : List (Text × Switch α) :=
  g.named.filter fun e => word.isPrefixOf e.1

end Grammar

/-! ## Arguments of a kind -/

/-- An effect with an integer for argument. -/
def Effect.integer {α : Type} (f : Option Int → α → α) : Effect α :=
  .argument fun t a => match t with
    | .none => .ok (f .none a)
    | .some t => match t.toInt? with
      | .some n => .ok (f (.some n) a)
      | .none => .error (.notInteger t)

/-- An effect with a text for argument. -/
def Effect.text {α : Type} (f : Option Text → α → α) : Effect α := .argument fun t a => .ok (f t a)

/-- The value that a word chooses. -/
def choose {β : Type} (choices : List (Text × β)) (word : Text) : Except Objection β :=
  match choices.find? (·.1 == word) with
  | .some c => .ok c.2
  | .none => .error (.notChoice word (choices.map (·.1)))

/-- An effect with one of some words for argument. -/
def Effect.choice {α β : Type} (choices : List (Text × β)) (f : Option β → α → α) : Effect α :=
  .argument fun t a => (t.mapM (choose choices)).map fun b => f b a

end RequestLog.CommandLine
