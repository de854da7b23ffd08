/-
Mappings from values of other kinds. A list is a mapping if each element of
it is a pair, and a pair is whatever has two parts: a list of two, a text of
two characters, or a mapping of two keys.
-/
import RequestLog.Config.Refusal
import RequestLog.Config.Value

namespace RequestLog.Config

namespace Value

/-- The parts of a value that has parts. -/
def parts? : Value → Option (List Value)
  | list vs => .some vs
  | text t => .some (t.map fun c => text [c])
  | map es => .some (es.map (·.1))
  | _ => .none

/-- Adds pairs to a mapping; the first of them has an index. -/
def addPairs (m : Mapping) : (index : Nat) → List Value → Except Misfit Mapping
  | _, [] => .ok m
  | i, v :: vs =>
    match v.parts? with
    | .none => .error (.notPair i)
    | .some [k, w] => if k.isKey then addPairs (m.insert k w) (i + 1) vs else .error (.notKey k.typeName)
    | .some ps => .error (.wrongLength i ps.length)

/-- The mapping that a value is or becomes. -/
def toMapping : Value → Except Misfit Mapping
  | map es => .ok es
  | v => match v.parts? with
    | .none => .error (.noElements v.typeName)
    | .some vs => addPairs [] 0 vs

/-- The mapping that a value is or becomes; a void value is an empty one. -/
def toMappingOrEmpty (v : Value) : Except Misfit Mapping := if v.isVoid then .ok [] else v.toMapping

end Value

end RequestLog.Config
