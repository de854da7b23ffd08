/-
The tokens of a text. What a line begins depends on its indentation, and a
scalar or a flow collection turns out to be a key only where a colon follows
it on its line; the key's token then goes in before it.

`ofSource` always gives a list that ends in the end of the stream or in a
fault.
-/
import RequestLog.Text.DecimalDigit
import RequestLog.Yaml.Token
import RequestLog.Yaml.Token.Scalar

namespace RequestLog.Yaml.Token

/-- A place at which a key may have begun, and the number of tokens before it. -/
structure Candidate where
  number : Nat
  required : Bool
  index : Nat
  line : Nat
  column : Nat

/-- The state between two tokens. Tokens are held last first; candidates are held by their depth in
flow collections. -/
structure State where
  place : Cursor
  tokens : List Token := []
  depth : Nat := 0
  indent : Int := -1
  outer : List Int := []
  keyAllowed : Bool := true
  candidates : List (Nat × Candidate) := []
  finished : Bool := false

namespace State

def inFlow (s : State) : Bool := s.depth != 0

def push (s : State) (t : Token) : State := { s with tokens := t :: s.tokens }

/-- Puts a token in after a number of others. -/
def insertAt (s : State) (number : Nat) (t : Token) : State :=
  let later := s.tokens.length - number
  { s with tokens := s.tokens.take later ++ t :: s.tokens.drop later }

/-- Puts a token for what stands at a place, and goes a number of characters on. -/
def take (s : State) (t : Token) (places : Nat) : State :=
  { s.push t with place := s.place.advance places }

/-! ## Candidates for keys -/

/-- The longest key on one line. -/
def longestKey : Nat := 1024

def isStale (s : State) (k : Candidate) : Bool :=
  k.line != s.place.line || decide (k.index + longestKey < s.place.index)

/-- Gives up the candidates that are no longer on the line. -/
def dropStale (s : State) : Except Fault State :=
  if s.candidates.any fun k => k.2.required && s.isStale k.2 then malformed .keyUnfinished
  else .ok { s with candidates := s.candidates.filter fun k => !s.isStale k.2 }

/-- Gives up the candidate at the present depth. -/
def dropCandidate (s : State) : Except Fault State :=
  if s.candidates.any fun k => k.1 == s.depth && k.2.required then malformed .keyUnfinished
  else .ok { s with candidates := s.candidates.filter fun k => k.1 != s.depth }

/-- Notes that a key may begin here. It has to be one where it is as far out as its block. -/
def noteCandidate (s : State) : Except Fault State :=
  if s.keyAllowed then do
    let required := !s.inFlow && s.indent == s.place.column
    let k := ⟨s.tokens.length, required, s.place.index, s.place.line, s.place.column⟩
    let s ← s.dropCandidate
    return { s with candidates := (s.depth, k) :: s.candidates }
  else .ok s

/-! ## Indentation -/

/-- Ends the blocks that are indented further than a column. -/
def unwind (s : State) (column : Int) : State :=
  if s.inFlow then s
  else
    let ended := (s.indent :: s.outer).takeWhile (column < ·)
    let left := (s.indent :: s.outer).dropWhile (column < ·)
    { s with
      tokens := ended.map (fun _ => Token.blockEnd) ++ s.tokens
      indent := left.head?.getD (-1)
      outer := left.tail }

/-- Whether a block begins at a column. -/
def opens (s : State) (column : Nat) : Bool := s.indent < column

/-- Begins a block at a column. -/
def opened (s : State) (column : Nat) : State :=
  { s with outer := s.indent :: s.outer, indent := column }

/-- Begins a block here if none has begun at this column, with a token for its beginning. -/
def openHere (s : State) (t : Token) : State :=
  if s.opens s.place.column then (s.push t).opened s.place.column else s

/-! ## One token -/

def fetchStreamEnd (s : State) : Except Fault State := do
  let s ← (s.unwind (-1)).dropCandidate
  return { s.push .streamEnd with finished := true }

def isNameChar (c : Char) : Bool := c.isAlphanum || c == '-' || c == '_'

/-- The characters that may stand in the address of a tag. -/
def isAddressChar (c : Char) : Bool := c.isAlphanum || "-;/?:@&=+$,_.!~*'()[]".contains c

/-- The bytes of escapes in an address. -/
def addressBytes : (fuel : Nat) → Cursor → Except Fault (Bytes × Cursor)
  | 0, c => .ok ([], c)
  | fuel + 1, c =>
    if c.peek == .some '%' then
      match Quoted.hexNumber c.next 2 .badTag with
      | .error f => .error f
      | .ok (n, c) => (addressBytes fuel c).map fun (bs, c) => (n.toUInt8 :: bs, c)
    else .ok ([], c)

/-- The address of a tag, which must not be empty. -/
def address : (fuel : Nat) → Cursor → Except Fault (Text × Cursor)
  | 0, c => .ok ([], c)
  | fuel + 1, c => do
    let (w, c) := c.span isAddressChar
    let (bs, c) ← addressBytes c.rest.length c
    match Utf8.decodeBlock 0 bs with
    | .ok (t, []) =>
      if w.isEmpty && t.isEmpty then return ([], c)
      let (more, c) ← address fuel c
      return (codes w ++ t ++ more, c)
    | _ => c.refuse .badTag

def scanAddress (c : Cursor) : Except Fault (Text × Cursor) := do
  let (t, c) ← address (c.rest.length + 1) c
  if t.isEmpty then c.refuse .badTag
  return (t, c)

/-- The handle of a tag: an exclamation mark, or a name between two. -/
def scanHandle (c : Cursor) : Except Fault (Text × Cursor) :=
  if c.peek != .some '!' then c.refuse .badTag
  else if c.peek 1 == .some ' ' then .ok ([33], c.next)
  else
    let (w, c) := c.next.span isNameChar
    if c.peek == .some '!' then .ok (33 :: (codes w ++ [33]), c.next) else c.refuse .badTag

/-- A number in a directive, which must not be too long. -/
def scanNumber (c : Cursor) : Except Fault (Nat × Cursor) := do
  let (ds, c) := c.span Char.isDigit
  if ds.isEmpty then c.refuse .badDirective
  c.meet
  if Text.maxDigits < ds.length then .error (.noValue (.tooManyDigits ds.length))
  return (ds.foldl (fun n d => n * 10 + (d.toNat - 48)) 0, c)

/-- The version in a directive: two numbers around a point. -/
def scanVersion (c : Cursor) : Except Fault (Directive × Cursor) := do
  let (major, c) ← scanNumber (c.skip (· == ' '))
  if c.peek != .some '.' then c.refuse .badDirective
  let (_, c) ← scanNumber c.next
  if !isSpaceOrEnd c.peek then c.refuse .badDirective
  return (.version major, c)

def scanTagHandle (c : Cursor) : Except Fault (Directive × Cursor) := do
  let (handle, c) ← scanHandle (c.skip (· == ' '))
  if c.peek != .some ' ' then c.refuse .badDirective
  let (leading, c) ← scanAddress (c.skip (· == ' '))
  if !isSpaceOrEnd c.peek then c.refuse .badDirective
  return (.tagHandle handle leading, c)

/-- A directive; the place is after its percent sign. -/
def scanDirective (c : Cursor) : Except Fault (Directive × Cursor) := do
  let (name, c) := c.span isNameChar
  if name.isEmpty || !isSpaceOrEnd c.peek then c.refuse .badDirective
  let (d, c) ←
    if name == "YAML".toList then scanVersion c
    else if name == "TAG".toList then scanTagHandle c
    else .ok (.other, c.skip (!isBreak ·))
  match c.finishLine? with
  | .some c => return (d, c)
  | .none => malformed .badDirective

def fetchDirective (s : State) : Except Fault State := do
  let s ← (s.unwind (-1)).dropCandidate
  let (d, c) ← scanDirective s.place.next
  return { s.push (.directive d) with place := c, keyAllowed := false }

def fetchDocumentMark (s : State) (t : Token) : Except Fault State := do
  let s ← (s.unwind (-1)).dropCandidate
  return { s.take t 3 with keyAllowed := false }

/-- The beginning of a flow collection may also be that of a key. -/
def fetchFlowStart (s : State) (t : Token) : Except Fault State := do
  let s ← s.noteCandidate
  return { s.take t 1 with depth := s.depth + 1, keyAllowed := true }

def fetchFlowEnd (s : State) (t : Token) : Except Fault State := do
  let s ← s.dropCandidate
  return { s.take t 1 with depth := s.depth - 1, keyAllowed := false }

def fetchFlowEntry (s : State) : Except Fault State := do
  let s ← s.dropCandidate
  return { s.take .flowEntry 1 with keyAllowed := true }

def fetchBlockEntry (s : State) : Except Fault State := do
  if !s.inFlow && !s.keyAllowed then s.place.next.refuse .entryMisplaced
  let s := if s.inFlow then s else s.openHere .blockSequenceStart
  let s ← s.dropCandidate
  return { s.take .blockEntry 1 with keyAllowed := true }

def fetchKey (s : State) : Except Fault State := do
  if !s.inFlow && !s.keyAllowed then s.place.next.refuse .keyMisplaced
  let s := if s.inFlow then s else s.openHere .blockMappingStart
  let s ← s.dropCandidate
  return { s.take .key 1 with keyAllowed := !s.inFlow }

/-- A colon makes a key of the candidate before it, and that may begin a block. -/
def fetchValue (s : State) : Except Fault State :=
  match s.candidates.lookup s.depth with
  | .some k =>
    let s := { s with candidates := s.candidates.filter fun c => c.1 != s.depth }
    let s := s.insertAt k.number .key
    let s := if !s.inFlow && s.opens k.column then
        (s.insertAt k.number .blockMappingStart).opened k.column
      else s
    .ok { s.take .value 1 with keyAllowed := false }
  | .none => do
    if !s.inFlow && !s.keyAllowed then s.place.next.refuse .valueMisplaced
    let s := if s.inFlow then s else s.openHere .blockMappingStart
    let s ← s.dropCandidate
    return { s.take .value 1 with keyAllowed := !s.inFlow }

/-- The characters besides white space that may follow a name. -/
def nameEnds : List Char := ['?', ':', ',', ']', '\x7d', '%', '@', '\x60']

/-- An alias or an anchor, which may be or begin a key. -/
def fetchName (s : State) (make : Text → Token) : Except Fault State := do
  let s ← s.noteCandidate
  let (name, c) := s.place.next.span isNameChar
  let ends := isGap c.peek || c.peek.any nameEnds.contains
  if name.isEmpty || !ends then c.refuse .badAnchor
  return { s.push (make (codes name)) with place := c, keyAllowed := false }

/-- A tag; the place is that of its exclamation mark. It has a handle of more than that if another one
comes before the next space. -/
def scanTag (c : Cursor) : Except Fault (Token × Cursor) := do
  let (t, c) ←
    if c.peek 1 == .some '<' then do
      let (suffix, c) ← scanAddress (c.advance 2)
      if c.peek != .some '>' then c.refuse .badTag
      pure (Token.tag .none suffix, c.next)
    else if isGap (c.peek 1) then pure (Token.tag .none [33], c.next)
    else do
      let stop := c.next.skip fun ch => !isSpaceOrEnd (.some ch) && ch != '!'
      stop.meet
      let (handle, c) ← if stop.peek == .some '!' then scanHandle c else pure ([33], c.next)
      let (suffix, c) ← scanAddress c
      pure (Token.tag (.some handle) suffix, c)
  if !isSpaceOrEnd c.peek then c.refuse .badTag
  return (t, c)

def fetchTag (s : State) : Except Fault State := do
  let s ← s.noteCandidate
  let (t, c) ← scanTag s.place
  return { s.push t with place := c, keyAllowed := false }

def fetchBlockScalar (s : State) (folded : Bool) : Except Fault State := do
  let s ← s.dropCandidate
  let (t, c) ← Block.scan folded s.indent s.place
  return { s.push (.scalar t false) with place := c, keyAllowed := true }

def fetchQuoted (s : State) (double : Bool) : Except Fault State := do
  let s ← s.noteCandidate
  let (t, c) ← Quoted.scan double s.place
  if c.line != s.place.line then c.meetMark
  return { s.push (.scalar t false) with place := c, keyAllowed := false }

/-- After a plain scalar a key may follow only where the scan ended at the beginning of a line. -/
def fetchPlain (s : State) : Except Fault State := do
  let s ← s.noteCandidate
  let (t, c, lineStart) := Plain.scan s.inFlow (s.indent + 1) (s.place.rest.length + 1) s.place [] false
  if c.line != s.place.line then c.meetMark
  return { s.push (.scalar (codes t) true) with place := c, keyAllowed := lineStart }

/-- The characters that do not begin a plain scalar, or only before one that is no gap. -/
def indicators : List Char :=
  ['-', '?', ':', ',', '[', ']', '\x7b', '\x7d', '#', '&', '*', '!', '|', '>', '\'', '"', '%', '@', '\x60']

def beginsPlain (s : State) (ch : Char) : Bool :=
  (!isGap (.some ch) && !indicators.contains ch) ||
    (!isGap (s.place.peek 1) && (ch == '-' || (!s.inFlow && (ch == '?' || ch == ':'))))

/-- Goes past spaces, comments and line breaks. Outside of flow collections a key may begin on each
new line. -/
def toNextToken : (fuel : Nat) → State → State
  | 0, s => s
  | fuel + 1, s =>
    let c := (s.place.skip (· == ' ')).skipComment
    match c.lineBreak? with
    | .none => { s with place := c }
    | .some (_, c) => toNextToken fuel { s with place := c, keyAllowed := s.keyAllowed || !s.inFlow }

/-- A byte order mark may stand at the beginning of a text. -/
def skipOrderMark (s : State) : State :=
  if s.place.index == 0 && s.place.peek == .some '\ufeff' then { s with place := s.place.next } else s

/-- Takes the token that begins with a character. -/
def fetchAt (s : State) (ch : Char) : Except Fault State := do
  let atLeft := s.place.column == 0
  let beforeGap := isGap (s.place.peek 1)
  if atLeft && (ch == '-' || ch == '.') then s.place.meetMark
  if ch == '%' && atLeft then s.fetchDirective
  else if ch == '-' && atLeft && s.place.marked '-' then s.fetchDocumentMark .documentStart
  else if ch == '.' && atLeft && s.place.marked '.' then s.fetchDocumentMark .documentEnd
  else if ch == '[' then s.fetchFlowStart .flowSequenceStart
  else if ch == '\x7b' then s.fetchFlowStart .flowMappingStart
  else if ch == ']' then s.fetchFlowEnd .flowSequenceEnd
  else if ch == '\x7d' then s.fetchFlowEnd .flowMappingEnd
  else if ch == ',' then s.fetchFlowEntry
  else if ch == '-' && beforeGap then s.fetchBlockEntry
  else if ch == '?' && (s.inFlow || beforeGap) then s.fetchKey
  else if ch == ':' && (s.inFlow || beforeGap) then s.fetchValue
  else if ch == '*' then s.fetchName .alias
  else if ch == '&' then s.fetchName .anchor
  else if ch == '!' then s.fetchTag
  else if ch == '|' && !s.inFlow then s.fetchBlockScalar false
  else if ch == '>' && !s.inFlow then s.fetchBlockScalar true
  else if ch == '\'' then s.fetchQuoted false
  else if ch == '"' then s.fetchQuoted true
  else if s.beginsPlain ch then s.fetchPlain
  else s.place.next.refuse .badToken

/-- Takes the next token, with those that the indentation adds before it. -/
def fetch (s : State) : Except Fault State := do
  let s := (s.skipOrderMark).toNextToken (s.place.rest.length + 1)
  s.place.meet
  let s ← s.dropStale
  let s := s.unwind s.place.column
  let s ← match s.place.peek with
    | .none => s.fetchStreamEnd
    | .some ch => s.fetchAt ch
  s.place.meet
  if s.finished then return s else s.dropStale

/-- The tokens whose place among the others is settled: those before the first that may yet turn out
to be a key. -/
def settled (s : State) : List Token :=
  s.tokens.reverse.take ((s.candidates.map (·.2.number)).foldl min s.tokens.length)

/-- Takes all tokens. A fault takes the place of the first token that is not settled. -/
def fetchAll : (fuel : Nat) → State → List Token
  | 0, s => s.settled ++ [Token.fault (.malformed .badToken)]
  | fuel + 1, s =>
    if s.finished then s.tokens.reverse
    else match s.fetch with
      | .error f => s.settled ++ [Token.fault f]
      | .ok s => fetchAll fuel s

end State

/-- The tokens of a text. Each but the last takes at least one character. -/
def ofSource (s : Source) : List Token :=
  State.fetchAll (s.text.length + 2) { place := ⟨s.text, s.obstacle, 0, 0, 0⟩ }

end RequestLog.Yaml.Token
