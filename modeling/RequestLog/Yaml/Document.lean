/-
The value of a document. A merge brings the entries of other mappings into
one, and of two entries under one key the later holds, so the entries that
are brought in stand before its own.

Where several nodes have no value, the fault of the outermost counts, and of
those on one level that of the first.
-/
import RequestLog.Config.File
import RequestLog.Yaml.Node
import RequestLog.Yaml.Token.Stream

namespace RequestLog.Yaml

open Config (Value Mapping)

namespace Node

def tag : Node → Tag
  | scalar t _ | sequence t _ | mapping t _ => t

/-! ## Merges -/

/-- Whether a key is the sign for a merge. -/
def isMerge (n : Node) : Bool := n.tag == .merge

/-- The entries of a mapping in which no merge is left. -/
def entries? : Node → Option (List (Node × Node))
  | mapping _ es => if es.any (·.1.isMerge) then .none else .some es
  | _ => .none

/-- The entries that a merge with a value brings in: those of a mapping, or those of several, in which
the first mapping counts most. -/
def merged? : Node → Option (List (Node × Node))
  | sequence _ ns => (ns.mapM entries?).map fun ess => ess.reverse.flatten
  | n => n.entries?

/-- Entries after those that their merges bring in, if all merges can be done. -/
def mergeAll? (es : List (Node × Node)) : Option (List (Node × Node)) := do
  let ess ← (es.filter (·.1.isMerge)).mapM (·.2.merged?)
  return ess.flatten ++ es.filter (!·.1.isMerge)

mutual

/-- A node with the merges in it done, the inner ones first. A mapping with one that cannot be done
stays as it is. -/
def flatten : Node → Node
  | scalar tag t => scalar tag t
  | sequence tag ns => sequence tag (flattenItems ns)
  | mapping tag es =>
    let es := flattenEntries es
    mapping tag ((mergeAll? es).getD es)

def flattenItems : List Node → List Node
  | [] => []
  | n :: ns => n.flatten :: flattenItems ns

def flattenEntries : List (Node × Node) → List (Node × Node)
  | [] => []
  | (k, v) :: es => (k.flatten, v.flatten) :: flattenEntries es

end

/-! ## Single nodes -/

mutual

/-- The text of a node where a scalar is wanted. That of a mapping is the one under its default. -/
def scalarText? : Node → Option Text
  | scalar _ t => .some t
  | sequence _ _ => .none
  | mapping _ es => defaultText? es

def defaultText? : List (Node × Node) → Option Text
  | [] => .none
  | (k, v) :: es => if k.tag = .default then v.scalarText? else defaultText? es

end

/-- The value of a node before the nodes in it have theirs: a collection is still empty. -/
def outerValue (n : Node) : Except Fault Value :=
  match n.tag with
  | .sequence => .ok (.list [])
  | .mapping => .ok (.map [])
  | .merge | .default | .other => malformed .unknownTag
  | tag => match n.scalarText? with
    | .some t => (Scalar.value tag t).mapError .noValue
    | .none => malformed .notScalar

/-- A node as a key, where the sign for a default is a text. -/
def asKey : Node → Node
  | scalar .default t => scalar .text t
  | sequence .default ns => sequence .text ns
  | mapping .default es => mapping .text es
  | n => n

/-- The value of a node as a key. -/
def keyValue (n : Node) : Except Fault Value := do
  let v ← n.asKey.outerValue
  if v.isKey then return v else malformed .notKey

/-! ## Faults, level by level -/

def faultOf {α : Type} : Except Fault α → Option Fault
  | .error f => .some f
  | .ok _ => .none

/-- The first fault of what a collection holds. -/
def partFault : Node → Option Fault
  | sequence .sequence ns => ns.findSome? fun n => faultOf n.outerValue
  | mapping .mapping es =>
    if es.any (·.1.isMerge) then .some (.malformed .badMerge)
    else es.findSome? fun (k, v) => faultOf k.keyValue <|> faultOf v.outerValue
  | n => match n.tag with
    | .sequence => .some (.malformed .notSequence)
    | .mapping => .some (.malformed .notMapping)
    | _ => .none

def children : Node → List Node
  | sequence .sequence ns => ns
  | mapping .mapping es => es.map (·.2)
  | _ => []

mutual

def depth : Node → Nat
  | scalar _ _ => 1
  | sequence _ ns => depthOfItems ns + 1
  | mapping _ es => depthOfEntries es + 1

def depthOfItems : List Node → Nat
  | [] => 0
  | n :: ns => max n.depth (depthOfItems ns)

def depthOfEntries : List (Node × Node) → Nat
  | [] => 0
  | (_, n) :: es => max n.depth (depthOfEntries es)

end

/-- The first fault on a number of levels. -/
def faultOnLevels : (levels : Nat) → List Node → Option Fault
  | 0, _ => .none
  | levels + 1, ns => ns.findSome? partFault <|> faultOnLevels levels (ns.flatMap children)

/-- The fault that counts. -/
def fault? (n : Node) : Option Fault := faultOf n.outerValue <|> faultOnLevels n.depth [n]

/-! ## Values -/

mutual

/-- The value of a node without fault. -/
def value : Node → Value
  | sequence .sequence ns => .list (values ns)
  | mapping .mapping es => .map (addEntries [] es)
  | n => n.outerValue.toOption.getD .null

def values : List Node → List Value
  | [] => []
  | n :: ns => n.value :: values ns

def addEntries (m : Mapping) : List (Node × Node) → Mapping
  | [] => m
  | (k, v) :: es => addEntries (m.insert (k.keyValue.toOption.getD .null) v.value) es

end

end Node

/-- The value of a text; one without a document has none. -/
def Source.value (s : Source) : Except Fault (Option Value) := do
  match ← Node.ofTokens (Token.ofSource s) with
  | .none => return .none
  | .some n =>
    let n := n.flatten
    match n.fault? with
    | .some f => .error f
    | .none => return .some n.value

/-- Files hold documents. -/
instance reader : Config.Reader where
  read bs := (Source.ofBytes bs).value.mapError Fault.unreadable

end RequestLog.Yaml
