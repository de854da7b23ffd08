/-
Tags: what the nodes of a document are said to be. Bytes, sets and pairs have
tags too, but a configuration has no values for them, so these count with
the tags that nothing is known of.
-/
import RequestLog.Text

namespace RequestLog.Yaml

inductive Tag where
  | null
  | bool
  | int
  | float
  | timestamp
  | text
  | sequence
  | mapping
  | merge
  | default
  | other
  deriving Repr, DecidableEq

namespace Tag

/-- What the full names of the tags begin with. -/
def leading : Text := "tag:yaml.org,2002:"

def names : List (Text × Tag) := [
  ("null", .null), ("bool", .bool), ("int", .int), ("float", .float), ("timestamp", .timestamp),
  ("str", .text), ("seq", .sequence), ("map", .mapping), ("merge", .merge), ("value", .default)]

def ofName (name : Text) : Tag :=
  ((names.find? fun e => leading ++ e.1 == name).map (·.2)).getD .other

end Tag

end RequestLog.Yaml
