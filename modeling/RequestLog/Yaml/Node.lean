/-
Nodes: what a document is made of before its scalars have values. Entries of
a mapping stay in their order, and keys may repeat.

`ofTokens` reads the one node of a document, with its aliases replaced by
what they stand for; it gives nothing for a stream without a document. What
an alias stands for may not hold the alias itself, since the values of a
configuration are finite.
-/
import RequestLog.Yaml.Scalar
import RequestLog.Yaml.Token

namespace RequestLog.Yaml

inductive Node where
  | scalar (tag : Tag) (text : Text)
  | sequence (tag : Tag) (items : List Node)
  | mapping (tag : Tag) (entries : List (Node × Node))

namespace Node

/-! ## Reading tokens -/

/-- What is left to read, the anchors that have been given and the nodes they stand for, and the
handles that tags may have. -/
structure Reading where
  tokens : List Token
  anchors : List Text := []
  bound : List (Text × Node) := []
  handles : List (Text × Text) := [("!", "!"), ("!!", Tag.leading)]

abbrev Reader := StateT Reading (Except Fault)

def refuse {α : Type} (r : Malformed) : Reader α := throw (.malformed r)

/-- The next token. A fault in the tokens is met when it comes to be the next. -/
def peek : Reader Token := do
  match (← get).tokens with
  | [] => return .streamEnd
  | .fault f :: _ => throw f
  | t :: _ => return t

def skip : Reader Unit := modify fun r => { r with tokens := r.tokens.tail }

/-- Goes past a token if it is the next one. -/
def accept (t : Token) : Reader Bool := do
  if (← peek) == t then
    skip
    return true
  else return false

/-- An empty node is null. -/
def empty : Node := .scalar .null []

/-- What stands before a node: an anchor and a tag, in either order. -/
structure Properties where
  anchor : Option Text := .none
  tag : Option (Option Text × Text) := .none

def properties : Reader Properties := do
  match ← peek with
  | .anchor a =>
    skip
    match ← peek with
    | .tag h s => skip; return ⟨.some a, .some (h, s)⟩
    | _ => return ⟨.some a, .none⟩
  | .tag h s =>
    skip
    match ← peek with
    | .anchor a => skip; return ⟨.some a, .some (h, s)⟩
    | _ => return ⟨.none, .some (h, s)⟩
  | _ => return {}

/-- What a node says of its tag: nothing, that its form is to show it, or which it is. -/
inductive Mention where
  | absent
  | nonspecific
  | given (tag : Tag)

/-- The tag of a scalar. The form of one that is not plain does not count of itself. -/
def Mention.ofScalar (t : Text) (isPlain : Bool) : Mention → Tag
  | .absent => if isPlain then Scalar.tagOf t else .text
  | .nonspecific => Scalar.tagOf t
  | .given tag => tag

/-- The tag of what is not a scalar with a form, if not another is given. -/
def Mention.or (usual : Tag) : Mention → Tag
  | .given tag => tag
  | _ => usual

/-- What is said of a tag, with its handle replaced by what that stands for. -/
def resolveTag : Option (Option Text × Text) → Reader Mention
  | .none => return .absent
  | .some (handle, suffix) => do
    let full ← match handle with
      | .none => pure suffix
      | .some h =>
        match (← get).handles.lookup h with
        | .some leading => pure (leading ++ suffix)
        | .none => refuse .badTag
    return if full == [33] then .nonspecific else .given (.ofName full)

/-- Notes an anchor, which must be new. -/
def noteAnchor : Option Text → Reader Unit
  | .none => return ()
  | .some a => do
    if (← get).anchors.contains a then refuse .repeatedAnchor
    modify fun r => { r with anchors := a :: r.anchors }

/-- Binds the anchor of a node to it. -/
def bind (p : Properties) (n : Node) : Reader Node := do
  match p.anchor with
  | .none => return n
  | .some a =>
    modify fun r => { r with bound := (a, n) :: r.bound }
    return n

/-- The node that an alias stands for, which has to be complete. -/
def resolveAlias (a : Text) : Reader Node := do
  match (← get).bound.lookup a with
  | .some n => return n
  | .none => refuse (if (← get).anchors.contains a then .aliasInside else .unknownAlias)

/-- Goes past the comma that must stand between two entries of a flow collection. -/
def flowSeparator : Reader Unit := do
  if !(← accept .flowEntry) then refuse .flowUnclosed

mutual

/-- A node. In a block it may be a block collection, and after a key also a sequence that is not
indented. -/
def node : (fuel : Nat) → (block unindented : Bool) → Reader Node
  | 0, _, _ => refuse .contentMissing
  | fuel + 1, block, unindented => do
    match ← peek with
    | .alias a =>
      skip
      resolveAlias a
    | _ =>
      let p ← properties
      let tag ← resolveTag p.tag
      match ← peek with
      | .scalar t isPlain =>
        skip
        noteAnchor p.anchor
        bind p (.scalar (tag.ofScalar t isPlain) t)
      | .flowSequenceStart =>
        skip
        noteAnchor p.anchor
        bind p (.sequence (tag.or .sequence) (← flowItems fuel true))
      | .flowMappingStart =>
        skip
        noteAnchor p.anchor
        bind p (.mapping (tag.or .mapping) (← flowEntries fuel true))
      | .blockEntry =>
        if unindented then do
          noteAnchor p.anchor
          bind p (.sequence (tag.or .sequence) (← unindentedItems fuel))
        else emptyNode p tag
      | .blockSequenceStart =>
        if block then do
          skip
          noteAnchor p.anchor
          bind p (.sequence (tag.or .sequence) (← blockItems fuel))
        else emptyNode p tag
      | .blockMappingStart =>
        if block then do
          skip
          noteAnchor p.anchor
          bind p (.mapping (tag.or .mapping) (← blockEntries fuel))
        else emptyNode p tag
      | _ => emptyNode p tag
where
  /-- A node may be empty if something stands before it. -/
  emptyNode (p : Properties) (tag : Mention) : Reader Node := do
    if p.anchor.isNone && p.tag.isNone then refuse .contentMissing
    noteAnchor p.anchor
    bind p (.scalar (tag.or .null) [])

/-- The items of a block sequence. -/
def blockItems : (fuel : Nat) → Reader (List Node)
  | 0 => refuse .blockUnclosed
  | fuel + 1 => do
    if ← accept .blockEntry then
      let item ← match ← peek with
        | .blockEntry | .blockEnd => pure empty
        | _ => node fuel true false
      return item :: (← blockItems fuel)
    else if ← accept .blockEnd then return []
    else refuse .blockUnclosed

/-- The items of a sequence that is not indented; it ends where no entry follows. -/
def unindentedItems : (fuel : Nat) → Reader (List Node)
  | 0 => refuse .blockUnclosed
  | fuel + 1 => do
    if ← accept .blockEntry then
      let item ← match ← peek with
        | .blockEntry | .key | .value | .blockEnd => pure empty
        | _ => node fuel true false
      return item :: (← unindentedItems fuel)
    else return []

/-- The entries of a block mapping. -/
def blockEntries : (fuel : Nat) → Reader (List (Node × Node))
  | 0 => refuse .blockUnclosed
  | fuel + 1 => do
    if ← accept .key then
      let k ← blockPart fuel
      let v ← if ← accept .value then blockPart fuel else pure empty
      return (k, v) :: (← blockEntries fuel)
    else if ← accept .blockEnd then return []
    else refuse .blockUnclosed

/-- A key or a value of a block mapping. -/
def blockPart : (fuel : Nat) → Reader Node
  | 0 => refuse .contentMissing
  | fuel + 1 => do
    match ← peek with
    | .key | .value | .blockEnd => return empty
    | _ => node fuel true true

/-- The items of a flow sequence. A key makes a mapping of one entry. -/
def flowItems : (fuel : Nat) → (first : Bool) → Reader (List Node)
  | 0, _ => refuse .flowUnclosed
  | fuel + 1, first => do
    if ← accept .flowSequenceEnd then return []
    if !first then flowSeparator
    if ← accept .key then
      let k ← flowPart fuel .flowSequenceEnd true
      let v ← if ← accept .value then flowPart fuel .flowSequenceEnd false else pure empty
      return .mapping .mapping [(k, v)] :: (← flowItems fuel false)
    else if ← accept .flowSequenceEnd then return []
    else
      let item ← node fuel false false
      return item :: (← flowItems fuel false)

/-- The entries of a flow mapping. A node without a value indicator is a key without a value. -/
def flowEntries : (fuel : Nat) → (first : Bool) → Reader (List (Node × Node))
  | 0, _ => refuse .flowUnclosed
  | fuel + 1, first => do
    if ← accept .flowMappingEnd then return []
    if !first then flowSeparator
    if ← accept .key then
      let k ← flowPart fuel .flowMappingEnd true
      let v ← if ← accept .value then flowPart fuel .flowMappingEnd false else pure empty
      return (k, v) :: (← flowEntries fuel false)
    else if ← accept .flowMappingEnd then return []
    else
      let k ← node fuel false false
      return (k, empty) :: (← flowEntries fuel false)

/-- A key or a value in a flow collection; it is empty if the entry ends or its value follows. -/
def flowPart : (fuel : Nat) → (closing : Token) → (isKey : Bool) → Reader Node
  | 0, _, _ => refuse .contentMissing
  | fuel + 1, closing, isKey => do
    let t ← peek
    if t == .flowEntry || t == closing || (isKey && t == .value) then return empty
    else node fuel false false

end

/-! ## Documents -/

/-- The directives before a document. -/
def directives : (fuel : Nat) → (versioned : Bool) → (handles : List (Text × Text)) →
    Reader (List (Text × Text))
  | 0, _, handles => return handles
  | fuel + 1, versioned, handles => do
    match ← peek with
    | .directive (.version major) =>
      if versioned || major != 1 then refuse .badDirective
      skip
      directives fuel true handles
    | .directive (.tagHandle handle leading) =>
      if (handles.lookup handle).isSome then refuse .badDirective
      skip
      directives fuel versioned ((handle, leading) :: handles)
    | .directive .other => skip; directives fuel versioned handles
    | _ => return handles

/-- The content of a document that begins with a mark; there may be none. -/
def content (fuel : Nat) : Reader Node := do
  match ← peek with
  | .directive _ | .documentStart | .documentEnd | .streamEnd => return empty
  | _ => node fuel true false

/-- Goes past marks of the end of a document. -/
def documentEnds : (fuel : Nat) → Reader Unit
  | 0 => return ()
  | fuel + 1 => do if ← accept .documentEnd then documentEnds fuel else return ()

/-- The start of a document that is marked, after its directives. -/
def markedStart (fuel : Nat) : Reader Unit := do
  let given ← directives fuel false []
  modify fun r => { r with handles := given ++ r.handles }
  if !(← accept .documentStart) then refuse .startMissing

/-- The document of a stream that holds no more than one. -/
def document (fuel : Nat) : Reader (Option Node) := do
  match ← peek with
  | .streamEnd => return .none
  | _ =>
    let n ← match ← peek with
      | .directive _ | .documentStart =>
        markedStart fuel
        content fuel
      | _ => node fuel true false
    documentEnds fuel
    match ← peek with
    | .streamEnd => return .some n
    | _ =>
      markedStart fuel
      refuse .severalDocuments

/-- The node of the document, if there is one. No token is met more than four times. -/
def ofTokens (ts : List Token) : Except Fault (Option Node) :=
  (document (4 * ts.length + 4)).run' { tokens := ts }

end Node

end RequestLog.Yaml
