/-
The words of a command line at first sight. A word that begins with a dash
is a switch, unless it looks like a negative number or has a space in it;
the words after a divider are operands, whatever they look like.

A long name may be cut short as long as only one name begins so. Names of one
dash may be run together after one dash.
-/
import RequestLog.CommandLine.Grammar

namespace RequestLog.CommandLine

abbrev equals : Nat := 61

/-- A word at first sight. What is attached to a switch is the rest of its word, without the sign that
may set it off from the name. -/
inductive Piece (α : Type) where
  | operand (word : Text)
  | divider
  | switch (word : Text) (s : Switch α) (short : Bool) (attached : Option Text)
  | unknown (word : Text)

namespace Piece

def word {α : Type} : Piece α → Text
  | operand w => w
  | divider => CommandLine.divider
  | switch w _ _ _ => w
  | unknown w => w

end Piece

/-! ## Words -/

def isNumeral (t : Text) : Bool := t.all fun c => (Text.digit? c).isSome

/-- Whether a word is a dash and a number, with or without a point in it. A line feed may end it. -/
def isNegativeNumber : Text → Bool
  | [] => false
  | c :: t =>
    let t := if t.getLast? == .some 10 then t.dropLast else t
    c == dash && match t.cutAt 46 with
      | (whole, .none) => !whole.isEmpty && isNumeral whole
      | (whole, .some part) => isNumeral whole && !part.isEmpty && isNumeral part

/-- Whether a name has one dash. -/
def isShort (name : Text) : Bool := (name.drop 1).head? != .some dash

namespace Grammar

variable {α : Type}

/-- The switches that a word may stand for, by name, each with what is attached to it. -/
def candidates (g : Grammar α) (word : Text) : List (Text × Switch α × Option Text) :=
  if isShort word then
    match g.find? (word.take 2) with
    | .some s => [(word.take 2, s, .some (word.drop 2))]
    | .none => []
  else
    let (name, attached) := word.cutAt equals
    (g.completions name).map fun (n, s) => (n, s, attached)

/-- The piece that a word is, if it is no switch by name. -/
def pieceByCandidates (g : Grammar α) (word : Text) : Except Rejection (Piece α) :=
  match g.candidates word with
  | [] => .ok (if isNegativeNumber word || word.contains 32 then .operand word else .unknown word)
  | [(n, s, attached)] => .ok (.switch word s (isShort n) attached)
  | cs => .error (.ambiguous word (cs.map (·.1)))

/-- The piece that a word is before any divider. -/
def piece (g : Grammar α) (word : Text) : Except Rejection (Piece α) :=
  if word.head? != .some dash || word.length = 1 then .ok (.operand word)
  else match g.find? word with
    | .some s => .ok (.switch word s (isShort word) .none)
    | .none =>
      match word.cutAt equals with
      | (name, .some t) => match g.find? name with
        | .some s => .ok (.switch word s (isShort name) (.some t))
        | .none => g.pieceByCandidates word
      | (_, .none) => g.pieceByCandidates word

def pieces (g : Grammar α) : List Text → Except Rejection (List (Piece α))
  | [] => .ok []
  | w :: ws =>
    if w == divider then .ok (.divider :: ws.map .operand)
    else do
      let p ← g.piece w
      return p :: (← g.pieces ws)

end Grammar

/-! ## Switches run together -/

/-- The switches in one word: some without an argument, and a last one that may have its argument
there. -/
structure Cluster (α : Type) where
  before : List (Switch α)
  last : Switch α
  argument : Option Text

namespace Cluster

variable {α : Type}

/-- The switches in a word that begins with one of one dash, and goes on with its argument or with
the characters of further names. -/
def ofShort (g : Grammar α) (s : Switch α) (attached : Text) : Except Rejection (Cluster α) :=
  if s.takesArgument then .ok ⟨[], s, .some attached⟩
  else match attached with
    | [] => .error (s.object (.unwanted []))
    | c :: t => match g.find? [dash, c], t with
      | .none, _ => .error (s.object (.unwanted (c :: t)))
      | .some s', [] => .ok ⟨[s], s', .none⟩
      | .some s', d :: t => (ofShort g s' (d :: t)).map fun k => { k with before := s :: k.before }

/-- The switches in a word that begins with one. -/
def ofSwitch (g : Grammar α) (s : Switch α) (short : Bool) : Option Text → Except Rejection (Cluster α)
  | .none => .ok ⟨[], s, .none⟩
  | .some attached =>
    if short then ofShort g s attached
    else if s.takesArgument then .ok ⟨[], s, .some attached⟩
    else .error (s.object (.unwanted attached))

/-- Whether the last switch takes the next word. -/
def needsWord (k : Cluster α) : Bool := k.last.takesArgument && k.argument.isNone

/-- The effects of all switches, the last of them with an argument. -/
def apply (k : Cluster α) (program : Text) (argument : Option Text) (a : α) : Except Stop α := do
  let a ← k.before.foldlM (fun a s => s.apply program .none a) a
  k.last.apply program argument a

end Cluster

end RequestLog.CommandLine
