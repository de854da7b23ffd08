/-
The tokens of a document: its indicators, its scalars with all folding and
escaping undone, and the beginnings and ends of collections that only the
indentation shows.
-/
import RequestLog.Yaml.Fault

namespace RequestLog.Yaml

inductive Directive where
  | version (major : Nat)
  | tagHandle (handle leading : Text)
  | other
  deriving Repr, DecidableEq

inductive Token where
  | directive (d : Directive)
  | documentStart
  | documentEnd
  | blockSequenceStart
  | blockMappingStart
  | blockEnd
  | flowSequenceStart
  | flowSequenceEnd
  | flowMappingStart
  | flowMappingEnd
  | blockEntry
  | flowEntry
  | key
  | value
  | alias (name : Text)
  | anchor (name : Text)
  | tag (handle : Option Text) (suffix : Text)
  | scalar (text : Text) (isPlain : Bool)
  | streamEnd
  | fault (f : Fault)
  deriving Repr, DecidableEq

end RequestLog.Yaml
