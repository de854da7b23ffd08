/-
The texts of scalars: plain, quoted, and in blocks. A line break inside a
scalar is folded, into a space where it stands alone and otherwise into the
breaks that follow it; a literal block keeps its lines.
-/
import RequestLog.Yaml.Cursor

namespace RequestLog.Yaml

def codes (cs : List Char) : Text := cs.map Char.toNat

/-- What a line break becomes, with the breaks that follow it. -/
def fold (first : Char) (others : List Char) : List Char :=
  if first != '\n' then first :: others
  else if others.isEmpty then [' ']
  else others

/-! ## Plain scalars -/

namespace Plain

/-- The characters that end a plain scalar in a flow collection. -/
def isFlowEnd (c : Char) : Bool := c == ',' || c == '?' || c == '[' || c == ']' || c == '\x7b' || c == '\x7d'

/-- The characters before which a colon is an indicator in a flow collection. -/
def isFlowMark (c : Char) : Bool := c == ',' || c == '[' || c == ']' || c == '\x7b' || c == '\x7d'

/-- The run of characters that a plain scalar goes on with. -/
def word (inFlow : Bool) : List Char → List Char
  | [] => []
  | c :: rest =>
    if isGap (.some c) then []
    else if c == ':' && (isGap rest.head? || (inFlow && rest.head?.any isFlowMark)) then []
    else if inFlow && isFlowEnd c then []
    else c :: word inFlow rest

/-- The breaks of blank lines; none if the mark of a document follows. -/
def blankLines : (fuel : Nat) → Cursor → Option (List Char) × Cursor
  | 0, c => (.some [], c)
  | fuel + 1, c =>
    let c := c.skip (· == ' ')
    match c.lineBreak? with
    | .none => (.some [], c)
    | .some (b, c) =>
      if c.atMark then (.none, c)
      else
        let (bs, c) := blankLines fuel c
        (bs.map (b :: ·), c)

/-- What there is between two words of a plain scalar, and whether a line ends there. The scalar does
not go on if it is nothing. -/
def gap (c : Cursor) : List Char × Cursor × Bool :=
  let (spaces, c) := c.span (· == ' ')
  match c.lineBreak? with
  | .none => (spaces, c, false)
  | .some (b, c) =>
    if c.atMark then ([], c, true)
    else match blankLines c.rest.length c with
      | (.none, c) => ([], c, true)
      | (.some bs, c) => (fold b bs, c, true)

/-- The scalar from a place on, the place after it, and whether that is the first on its line. In a
block its lines must be indented at least as far as `indent`. -/
def scan (inFlow : Bool) (indent : Int) :
    (fuel : Nat) → Cursor → (before : List Char) → (lineStart : Bool) → List Char × Cursor × Bool
  | 0, c, _, lineStart => ([], c, lineStart)
  | fuel + 1, c, before, lineStart =>
    if c.peek == .some '#' then ([], c, lineStart)
    else match word inFlow c.rest with
      | [] => ([], c, lineStart)
      | w =>
        let (spaces, c, lineStart) := gap (c.advance w.length)
        if spaces.isEmpty || c.peek == .some '#' || (!inFlow && c.column < indent) then
          (before ++ w, c, lineStart)
        else
          let (more, c, lineStart) := scan inFlow indent fuel c spaces lineStart
          (before ++ w ++ more, c, lineStart)

end Plain

/-! ## Quoted scalars -/

namespace Quoted

/-- The characters that a letter after a backslash stands for. -/
def escapes : List (Char × Nat) :=
  [('0', 0), ('a', 7), ('b', 8), ('t', 9), ('\t', 9), ('n', 10), ('v', 11), ('f', 12), ('r', 13),
   ('e', 27), (' ', 32), ('"', 34), ('\\', 92), ('/', 47), ('N', 0x85), ('_', 0xA0), ('L', 0x2028),
   ('P', 0x2029)]

/-- The letters after which a number of hexadecimal digits stands. -/
def codeEscapes : List (Char × Nat) := [('x', 2), ('u', 4), ('U', 8)]

def hexDigit? (c : Char) : Option Nat :=
  if '0' ≤ c && c ≤ '9' then .some (c.toNat - 48)
  else if 'a' ≤ c && c ≤ 'f' then .some (c.toNat - 87)
  else if 'A' ≤ c && c ≤ 'F' then .some (c.toNat - 55)
  else .none

/-- The number that the next digits stand for, and the place after them; all must be there. -/
def hexNumber (c : Cursor) (digits : Nat) (reason : Malformed) : Except Fault (Nat × Cursor) :=
  let ds := ((c.rest.take digits).map hexDigit?).takeWhile Option.isSome
  let after := c.advance ds.length
  if ds.length = digits then .ok (ds.foldl (fun n d => n * 16 + d.getD 0) 0, after)
  else after.refuse reason

/-- The breaks of blank lines, before which no mark of a document may stand. -/
def blankLines : (fuel : Nat) → Cursor → Except Fault (List Char × Cursor)
  | 0, c => .ok ([], c)
  | fuel + 1, c =>
    if c.atMark then (c.advance 3).refuse .quoteUnclosed
    else
      let c := c.skip fun ch => ch == ' ' || ch == '\t'
      match c.lineBreak? with
      | .none => .ok ([], c)
      | .some (b, c) => (blankLines fuel c).map fun (bs, c) => (b :: bs, c)

/-- What an escape stands for; the place is after the backslash. -/
def escape (c : Cursor) : Except Fault (Text × Cursor) :=
  match c.peek with
  | .none => c.refuse .badEscape
  | .some ch =>
    match escapes.lookup ch, codeEscapes.lookup ch with
    | .some n, _ => .ok ([n], c.next)
    | _, .some digits => do
      let (n, c) ← hexNumber c.next digits .badEscape
      if 0x80000000 ≤ n then .error (.noValue .characterTooLarge)
      else if 0x110000 ≤ n then .error (.noValue .noCharacter)
      else return ([n], c)
    | _, _ =>
      match c.lineBreak? with
      | .none => malformed .badEscape
      | .some (_, c) => (blankLines c.rest.length c).map fun (bs, c) => (codes bs, c)

/-- The text up to the next gap or the closing quote. -/
def word (double : Bool) : (fuel : Nat) → Cursor → Except Fault (Text × Cursor)
  | 0, c => .ok ([], c)
  | fuel + 1, c =>
    let (w, c) := c.span fun ch => !(isGap (.some ch) || ch == '\'' || ch == '"' || ch == '\\')
    let go (t : Text) (c : Cursor) : Except Fault (Text × Cursor) :=
      (word double fuel c).map fun (more, c) => (codes w ++ t ++ more, c)
    match double, c.peek with
    | false, .some '\'' => if c.peek 1 == .some '\'' then go [39] (c.advance 2) else .ok (codes w, c)
    | true, .some '\'' => go [39] c.next
    | false, .some '"' => go [34] c.next
    | false, .some '\\' => go [92] c.next
    | true, .some '\\' => (escape c.next).bind fun (t, c) => go t c
    | _, _ => .ok (codes w, c)

/-- What a gap in a quoted scalar stands for. -/
def gap (c : Cursor) : Except Fault (Text × Cursor) :=
  let (spaces, c) := c.span fun ch => ch == ' ' || ch == '\t'
  match c.peek, c.lineBreak? with
  | .none, _ => c.refuse .quoteUnclosed
  | _, .some (b, c) => (blankLines c.rest.length c).map fun (bs, c) => (codes (fold b bs), c)
  | _, .none => .ok (codes spaces, c)

/-- The rest of a scalar after a word, up to its closing quote and past that. -/
def tail (double : Bool) : (fuel : Nat) → Cursor → Except Fault (Text × Cursor)
  | 0, _ => malformed .quoteUnclosed
  | fuel + 1, c =>
    if c.peek == .some (if double then '"' else '\'') then .ok ([], c.next)
    else do
      let (spaces, c) ← gap c
      let (w, c) ← word double c.rest.length c
      let (more, c) ← tail double fuel c
      return (spaces ++ w ++ more, c)

/-- The scalar that begins with the quote at a place, and the place after it. -/
def scan (double : Bool) (c : Cursor) : Except Fault (Text × Cursor) := do
  let (w, c) ← word double c.rest.length c.next
  let (more, c) ← tail double (c.rest.length + 1) c
  return (w ++ more, c)

end Quoted

/-! ## Block scalars -/

namespace Block

/-- What becomes of the line breaks at the end: all stay, one stays, or none. -/
inductive Chomping where
  | keep
  | clip
  | strip
  deriving DecidableEq

structure Header where
  chomping : Chomping
  indent : Option Nat

def chomping? : Option Char → Option Chomping
  | .some '+' => .some .keep
  | .some '-' => .some .strip
  | _ => .none

def digit? : Option Char → Option Nat
  | .some c => if '0' ≤ c && c ≤ '9' then .some (c.toNat - 48) else .none
  | .none => .none

/-- The signs after a block indicator, in either order. -/
def signs (c : Cursor) : Header × Cursor :=
  match chomping? c.peek, digit? c.peek with
  | .some k, _ =>
    match digit? (c.peek 1) with
    | .some n => (⟨k, .some n⟩, c.advance 2)
    | .none => (⟨k, .none⟩, c.next)
  | _, .some n =>
    match chomping? (c.peek 1) with
    | .some k => (⟨k, .some n⟩, c.advance 2)
    | .none => (⟨.clip, .some n⟩, c.next)
  | _, _ => (⟨.clip, .none⟩, c)

/-- The header of a block, and the place where its first line begins. -/
def header (c : Cursor) : Except Fault (Header × Cursor) :=
  let (h, c) := signs c
  if h.indent == .some 0 then malformed .badBlockHeader
  else if !isSpaceOrEnd c.peek then c.refuse .badBlockHeader
  else match c.finishLine? with
    | .some c => .ok (h, c)
    | .none => malformed .badBlockHeader

/-- The breaks of the blank lines a block begins with, and the widest indentation among them and the
line that follows. -/
def leadingLines : (fuel : Nat) → Cursor → (widest : Nat) → List Char × Nat × Cursor
  | 0, c, widest => ([], widest, c)
  | fuel + 1, c, widest =>
    let c := c.skip (· == ' ')
    let widest := max widest c.column
    match c.lineBreak? with
    | .none => ([], widest, c)
    | .some (b, c) =>
      let (bs, widest, c) := leadingLines fuel c widest
      (b :: bs, widest, c)

/-- Goes past the spaces that indent a line, up to a column. -/
def skipIndent (indent : Nat) (c : Cursor) : Cursor :=
  c.advance (min (c.rest.takeWhile (· == ' ')).length (indent - c.column))

/-- The breaks of blank lines inside a block, and the place where the next line begins. -/
def blankLines (indent : Nat) : (fuel : Nat) → Cursor → List Char × Cursor
  | 0, c => ([], c)
  | fuel + 1, c =>
    let c := skipIndent indent c
    match c.lineBreak? with
    | .none => ([], c)
    | .some (b, c) =>
      let (bs, c) := blankLines indent fuel c
      (b :: bs, c)

/-- Whether a line of a block begins at a place. -/
def atLine (indent : Nat) (c : Cursor) : Bool := c.column == indent && c.peek.isSome

def isIndented (c : Cursor) : Bool := c.peek == .some ' ' || c.peek == .some '\t'

/-- What stands between two lines of a block. A folded block folds only between lines that are not
indented further. -/
def joint (folded : Bool) (lineBreak : Char) (breaks : List Char) (isOuter : Bool) : List Char :=
  if folded && lineBreak == '\n' && isOuter then (if breaks.isEmpty then [' '] else []) else [lineBreak]

/-- The lines of a block from a place on. The results are their text, the break that ends the last of
them, the breaks that follow it, and the place after. -/
def lines (folded : Bool) (indent : Nat) :
    (fuel : Nat) → Cursor → List Char × List Char × List Char × Cursor
  | 0, c => ([], [], [], c)
  | fuel + 1, c =>
    let isOuter := !isIndented c
    let (w, c) := c.span (!isBreak ·)
    let (b, c) := match c.lineBreak? with
      | .some (b, c) => ([b], c)
      | .none => ([], c)
    let (bs, c) := blankLines indent c.rest.length c
    if atLine indent c then
      let between := b.flatMap fun b => joint folded b bs (isOuter && !isIndented c)
      let (more, last, after, c) := lines folded indent fuel c
      (w ++ between ++ bs ++ more, last, after, c)
    else (w, b, bs, c)

/-- The scalar whose indicator stands at a place inside an indentation, and the place after it. -/
def scan (folded : Bool) (outer : Int) (c : Cursor) : Except Fault (Text × Cursor) := do
  let (h, c) ← header c.next
  let least := (max (outer + 1) 1).toNat
  let (breaks, indent, c) := match h.indent with
    | .none =>
      let (bs, widest, c) := leadingLines (c.rest.length + 1) c 0
      (bs, max least widest, c)
    | .some n =>
      let indent := least + n - 1
      let (bs, c) := blankLines indent (c.rest.length + 1) c
      (bs, indent, c)
  let (body, last, after, c) :=
    if atLine indent c then
      let (body, last, after, c) := lines folded indent (c.rest.length + 1) c
      (breaks ++ body, last, after, c)
    else ([], [], breaks, c)
  let ending := match h.chomping with
    | .keep => last ++ after
    | .clip => last
    | .strip => []
  return (codes (body ++ ending), c)

end Block

end RequestLog.Yaml
