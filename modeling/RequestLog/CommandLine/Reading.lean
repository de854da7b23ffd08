/-
Reading the words of a command line. Pieces are taken from the front, and
each of them changes the value read so far; the words that nothing takes are
kept in their order.
-/
import RequestLog.CommandLine.Piece

namespace RequestLog.CommandLine

variable {α : Type}

/-! ## Operands -/

/-- The words of the operand that pieces begin with, and the pieces after it. The dividers before
it and the one after it go with it. -/
def cutOperand? : List (Piece α) → Option (List Text × List (Piece α))
  | .divider :: ps => (cutOperand? ps).map fun (ws, rest) => (divider :: ws, rest)
  | .operand w :: .divider :: ps => .some ([w, divider], ps)
  | .operand w :: ps => .some ([w], ps)
  | _ => .none

theorem length_of_cutOperand? {ps rest : List (Piece α)} {ws : List Text}
    (h : cutOperand? ps = .some (ws, rest)) : rest.length < ps.length := by
  fun_induction cutOperand? ps generalizing ws rest with
  | case1 ps ih =>
    obtain ⟨⟨ws', rest'⟩, hcut, heq⟩ := Option.map_eq_some_iff.mp h
    cases heq
    have := ih hcut
    simp only [List.length_cons]
    omega
  | case2 => cases h; simp only [List.length_cons]; omega
  | case3 => cases h; simp
  | case4 => cases h

/-- The value of an operand with its dividers. -/
def operandValue (ws : List Text) : Option Text := (ws.erase divider).head?

/-! ## All pieces -/

/-- Puts a word that nothing took before the others. -/
def withLeft (w : Text) (r : α × List Text) : α × List Text := (r.1, w :: r.2)

namespace Grammar

/-- Ends the reading where operands may be missing. -/
def finish (g : Grammar α) (operands : List (Operand α)) (a : α) : Except Stop (α × List Text) :=
  if operands.isEmpty then .ok (a, []) else .error (.rejected g.program (.missing (operands.map Operand.name)))

/-- Reads pieces while some operands are to come. -/
def readPieces (g : Grammar α) (operands : List (Operand α)) (a : α) :
    List (Piece α) → Except Stop (α × List Text)
  | [] => g.finish operands a
  | .unknown w :: ps => (g.readPieces operands a ps).map (withLeft w)
  | .switch _ s short attached :: ps =>
    match Cluster.ofSwitch g s short attached with
    | .error r => .error (.rejected g.program r)
    | .ok k =>
      if k.needsWord then
        match ps with
        | .operand w :: ps' => do g.readPieces operands (← k.apply g.program (.some w) a) ps'
        | _ => .error (.rejected g.program (k.last.object .missing))
      else do g.readPieces operands (← k.apply g.program k.argument a) ps
  | p :: ps =>
    match h : cutOperand? (p :: ps), operands with
    | .some (ws, rest), .word _ f :: operands' =>
      have : rest.length < ps.length + 1 := length_of_cutOperand? h
      g.readPieces operands' (f (operandValue ws) a) rest
    | .some _, .rest _ f :: operands' => do
      let (a, left) ← f p.word (ps.map Piece.word) a
      (g.finish operands' a).map fun r => (r.1, left)
    | _, _ => (g.readPieces operands a ps).map (withLeft p.word)
termination_by ps => ps.length

/-- Reads the words of a command line; gives what they say and the words that nothing took. -/
def read (g : Grammar α) (words : List Text) (a : α) : Except Stop (α × List Text) := do
  let ps ← (g.pieces words).mapError (.rejected g.program)
  g.readPieces g.operands a ps

end Grammar

end RequestLog.CommandLine
