/-
A place in a document: the characters from there on, what stands behind them
if that is not the end, how many came before, and the line and the column.
-/
import RequestLog.Yaml.Source

namespace RequestLog.Yaml

/-- The characters that end a line. -/
def isBreak (c : Char) : Bool :=
  c == '\n' || c == '\r' || c == '\x85' || c == '\u2028' || c == '\u2029'

/-- The end of a line, or of the document. -/
def isLineEnd : Option Char → Bool
  | .none => true
  | .some c => isBreak c

/-- A space, or the end of a line. -/
def isSpaceOrEnd : Option Char → Bool
  | .none => true
  | .some c => c == ' ' || isBreak c

/-- White space, or the end of a line. -/
def isGap : Option Char → Bool
  | .none => true
  | .some c => c == ' ' || c == '\t' || isBreak c

structure Cursor where
  rest : List Char
  obstacle : Option Fault := .none
  index : Nat := 0
  line : Nat := 0
  column : Nat := 0

namespace Cursor

/-- The character a number of places on, if the document goes that far. -/
def peek (c : Cursor) (places : Nat := 0) : Option Char := c.rest[places]?

/-- The place after the next character. A byte order mark takes up no column, and a carriage return
before a line feed ends no line. -/
def next (c : Cursor) : Cursor :=
  match c.rest with
  | [] => c
  | ch :: rest =>
    if isBreak ch && !(ch == '\r' && rest.head? == .some '\n') then
      { c with rest, index := c.index + 1, line := c.line + 1, column := 0 }
    else if ch == '\ufeff' then { c with rest, index := c.index + 1 }
    else { c with rest, index := c.index + 1, column := c.column + 1 }

def advance : (places : Nat) → Cursor → Cursor
  | 0, c => c
  | n + 1, c => advance n c.next

/-- Meets the obstacle, if it is no further than a number of places on. -/
def meet (c : Cursor) (places : Nat := 0) : Except Fault Unit :=
  match c.rest.drop places, c.obstacle with
  | [], .some f => .error f
  | _, _ => .ok ()

/-- Meets the obstacle, if it is among the first three places of the line of a cursor, where the mark
of a document may stand. -/
def meetMark (c : Cursor) : Except Fault Unit := c.meet (2 - c.column)

/-- Refuses what stands at a place, unless that is an obstacle. -/
def refuse {α : Type} (c : Cursor) (r : Malformed) : Except Fault α := do
  c.meet
  malformed r

/-- The longest run of characters of one kind, and the place after it. -/
def span (c : Cursor) (p : Char → Bool) : List Char × Cursor :=
  let w := c.rest.takeWhile p
  (w, c.advance w.length)

def skip (c : Cursor) (p : Char → Bool) : Cursor := (c.span p).2

/-- The line break at a place, and the place after it. Most breaks count as line feeds. -/
def lineBreak? (c : Cursor) : Option (Char × Cursor) :=
  match c.rest with
  | '\r' :: '\n' :: _ => .some ('\n', c.advance 2)
  | ch :: _ =>
    if ch == '\u2028' || ch == '\u2029' then .some (ch, c.next)
    else if isBreak ch then .some ('\n', c.next)
    else .none
  | [] => .none

def skipLineBreak (c : Cursor) : Cursor := (c.lineBreak?.map (·.2)).getD c

/-- Whether three equal characters and then a gap stand at a place. -/
def marked (c : Cursor) (mark : Char) : Bool :=
  [mark, mark, mark].isPrefixOf c.rest && isGap (c.peek 3)

/-- Whether the mark of the start or the end of a document stands at a place. -/
def atMark (c : Cursor) : Bool := c.marked '-' || c.marked '.'

/-- Goes past a comment, if one begins at a place, to the end of its line. -/
def skipComment (c : Cursor) : Cursor :=
  if c.peek == .some '#' then c.skip (!isBreak ·) else c

/-- Goes past spaces and a comment up to the end of a line and past that; nothing else may stand
there. -/
def finishLine? (c : Cursor) : Option Cursor :=
  let c := (c.skip (· == ' ')).skipComment
  if isLineEnd c.peek then .some c.skipLineBreak else .none

end Cursor

end RequestLog.Yaml
