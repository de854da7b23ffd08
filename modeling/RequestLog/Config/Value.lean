/-
The values a configuration is made of, and their texts. A mapping holds its
entries in the order in which they were added, and no two keys are the same.
No value holds itself, and there are none for bytes, sets and pairs.
-/
import RequestLog.Binary64.Shortest
import RequestLog.Calendar
import RequestLog.Text.Quoted

namespace RequestLog.Config

inductive Value where
  | null
  | bool (b : Bool)
  | int (n : Int)
  | float (x : Binary64)
  | text (t : Text)
  | date (d : Date)
  | time (t : Timestamp)
  | list (vs : List Value)
  | map (entries : List (Value × Value))
  deriving Inhabited

abbrev Mapping := List (Value × Value)

namespace Value

/-! ## Texts -/

def typeName : Value → Text
  | null => "NoneType"
  | bool _ => "bool"
  | int _ => "int"
  | float _ => "float"
  | text _ => "str"
  | date _ => "datetime.date"
  | time _ => "datetime.datetime"
  | list _ => "list"
  | map _ => "dict"

mutual

/-- The text of a value in messages. -/
def quoted : Value → Text
  | null => "None"
  | bool b => if b then "True" else "False"
  | int n => Text.ofInt n
  | float x => x.text
  | text t => t.quoted
  | date d => d.quoted
  | time t => t.quoted
  | list vs => "[" ++ Text.join ", " (quotedItems vs) ++ "]"
  | map es => 123 :: Text.join ", " (quotedEntries es) ++ [125]

def quotedItems : List Value → List Text
  | [] => []
  | v :: vs => v.quoted :: quotedItems vs

def quotedEntries : List (Value × Value) → List Text
  | [] => []
  | (k, v) :: es => (k.quoted ++ ": " ++ v.quoted) :: quotedEntries es

end

/-- The text that a value is read as where a text is wanted. -/
def plain : Value → Text
  | text t => t
  | date d => d.text
  | time t => t.text
  | v => v.quoted

mutual

/-- Whether a value has a text. An integer with more digits than the longest numeral has none. -/
def hasText : Value → Bool
  | int n => n.natAbs < Text.leastTooLong
  | list vs => itemsHaveText vs
  | map es => entriesHaveText es
  | _ => true

def itemsHaveText : List Value → Bool
  | [] => true
  | v :: vs => v.hasText && itemsHaveText vs

def entriesHaveText : List (Value × Value) → Bool
  | [] => true
  | (k, v) :: es => k.hasText && v.hasText && entriesHaveText es

end

/-! ## What values count as -/

/-- Whether a value counts as absent: it is null, false, zero or empty. -/
def isVoid : Value → Bool
  | null => true
  | bool b => !b
  | int n => n == 0
  | float x => x.isZero
  | text t => t.isEmpty
  | list vs => vs.isEmpty
  | map es => es.isEmpty
  | date _ | time _ => false

/-- The integer that a boolean or an integer is. -/
def integer? : Value → Option Int
  | bool b => .some (if b then 1 else 0)
  | int n => .some n
  | _ => .none

def isNan : Value → Bool
  | float .nan => true
  | _ => false

/-- Whether two keys are the same. Numbers are compared by value, whatever their kind; what is no
number is the same as itself. -/
def sameKey : Value → Value → Bool
  | null, null => true
  | float .nan, float .nan => true
  | text a, text b => a == b
  | date a, date b => a == b
  | time a, time b => a.same b
  | float a, float b => a.same b
  | float a, b => match b.integer? with
    | .some n => a.isInt n
    | .none => false
  | a, float b => match a.integer? with
    | .some n => b.isInt n
    | .none => false
  | a, b => match a.integer?, b.integer? with
    | .some m, .some n => m == n
    | _, _ => false

/-- Whether a value can be a key. -/
def isKey : Value → Bool
  | list _ | map _ => false
  | _ => true

end Value

namespace Mapping

def get? (m : Mapping) (key : Value) : Option Value :=
  (m.find? fun e => e.1.sameKey key).map (·.2)

/-- The mapping with a value under a key. A key that is there stays as it is. -/
def insert : Mapping → Value → Value → Mapping
  | [], key, v => [(key, v)]
  | (k, w) :: es, key, v => if k.sameKey key then (k, v) :: es else (k, w) :: insert es key v

/-- The mapping of pairs that each bring a key of their own: what is no number is then a new key each
time. -/
def ofPairs (ps : List (Value × Value)) : Mapping :=
  ps.foldl (fun m (k, v) => if k.isNan then m ++ [(k, v)] else m.insert k v) []

/-- The mapping with a value under a key that had none. -/
def insertNew (m : Mapping) (key v : Value) : Mapping :=
  if (m.get? key).isSome then m else m.insert key v

/-- The value under a name, or null. -/
def field (m : Mapping) (name : Text) : Value := (m.get? (.text name)).getD .null

end Mapping

end RequestLog.Config
