/-
The settings of a replay, from a configuration. A configuration is first
brought into its normal form, in which every field is there, and then checked
field by field.
-/
import RequestLog.Config.Conversion
import RequestLog.Escape
import RequestLog.Failure

namespace RequestLog.Config

structure Settings where
  file : Text
  loop : Bool
  embedded : Bool
  addHeader : List Text
  numCalls : Option Nat
  verbose : Nat
  deriving Repr, DecidableEq

/-! ## Names of fields -/

def wlogField : Text := "wlog"
def fileField : Text := "file"
def loopField : Text := "loop"
def embeddedField : Text := "embedded_http_headers"
def headerField : Text := "add_header"
def callsField : Text := "num_calls"
def verboseField : Text := "verbose"

/-! ## Flags -/

def trueWords : List Text := ["y", "yes", "1", "true", "on"]

def falseWords : List Text := ["n", "no", "0", "false", "off"]

/-- The flag that a word stands for, in any case and with white space around it. -/
def flagOfWord? (t : Text) : Option Bool :=
  let w := t.strip.lower
  if trueWords.contains w then .some true else if falseWords.contains w then .some false else .none

/-- The flag that a value is or stands for. -/
def flag (which : Flag) : Value → Except Failure Bool
  | .bool b => .ok b
  | v =>
    if !v.hasText then .error .numeralTooLong
    else match flagOfWord? v.plain with
      | .some b => .ok b
      | .none => .error (.refused (.flag which v.quoted))

/-- The option that names a log and whether to loop: a flag, a comma, and a path. -/
def parseOption (t : Text) : Except Failure (Bool × Text) :=
  match t.cutAt 44 with
  | (_, .none) | (_, .some []) => .error (.refused (.option t.quoted))
  | (word, .some path) => (flag .loopOption (.text word)).map fun loop => (loop, path)

/-! ## Normal form -/

/-- The section on the log. A text in its place is read as the option. -/
def section? (v : Value) : Except Failure Mapping :=
  if v.isVoid then .ok []
  else match v with
    | .text t => (parseOption t).map fun (loop, path) =>
      [(.text fileField, .text path), (.text loopField, .bool loop)]
    | v => v.toMapping.mapError .misfit

/-- The list of headers; a text is a list of one. -/
def headerList : Value → Value
  | .null => .list []
  | .text t => .list [.text t]
  | v => v

def normalize (payload : Value) : Except Failure Mapping := do
  let m ← payload.toMappingOrEmpty.mapError .misfit
  let s ← section? (m.field wlogField)
  let s := (s.insertNew (.text loopField) (.bool false)).insertNew (.text embeddedField) (.bool false)
  let m := m.insert (.text wlogField) (.map s)
  let m := m.insert (.text headerField) (headerList (m.field headerField))
  return (m.insertNew (.text callsField) .null).insertNew (.text verboseField) (.int 0)

/-! ## Checks -/

def texts? : List Value → Option (List Text)
  | [] => .some []
  | .text t :: vs => (texts? vs).map (t :: ·)
  | _ => .none

def headers : Value → Except Failure (List Text)
  | .list vs => match texts? vs with
    | .some ts => .ok ts
    | .none => .error (.refused .headers)
  | _ => .error (.refused .headers)

def callCount : Value → Except Failure (Option Nat)
  | .null => .ok .none
  | .int n => if n < 0 then .error (.refused .callCount) else .ok (.some n.toNat)
  | _ => .error (.refused .callCount)

def verbosity : Value → Except Failure Nat
  | .bool b => .ok (if b then 1 else 0)
  | .int n => if n < 0 then .error (.refused .verbosity) else .ok n.toNat
  | _ => .error (.refused .verbosity)

/-- The section in a configuration in normal form. -/
def sectionOf (m : Mapping) : Mapping :=
  match m.field wlogField with
  | .map s => s
  | _ => []

/-- Checks a configuration in normal form. In the mapping it gives back, flags and the verbosity
have the kind that they stand for. Whether the file has a text is not checked. -/
def validate (m : Mapping) : Except Failure (Mapping × Settings) := do
  let s := sectionOf m
  let file := s.field fileField
  if file.isVoid then .error (.refused .fileMissing)
  let loop ← flag .loop (s.field loopField)
  let embedded ← flag .embeddedHeaders (s.field embeddedField)
  let addHeader ← headers (m.field headerField)
  let numCalls ← callCount (m.field callsField)
  let verbose ← verbosity (m.field verboseField)
  let s := (s.insert (.text loopField) (.bool loop)).insert (.text embeddedField) (.bool embedded)
  let m := (m.insert (.text wlogField) (.map s)).insert (.text verboseField) (.int verbose)
  return (m, ⟨file.plain, loop, embedded, addHeader, numCalls, verbose⟩)

def settings (payload : Value) : Except Failure Settings := do
  let (m, s) ← validate (← normalize payload)
  if !((sectionOf m).field fileField).hasText then .error .numeralTooLong
  return s

namespace Settings

/-- The headers that every call gets. The notices before a failure stay. -/
def extraHeaders : List Text → Noted (Except Failure (List Bytes))
  | [] => ⟨[], .ok []⟩
  | t :: ts =>
    match Escape.unescapeDatum (.text t) Escape.optionSource with
    | .error f => ⟨[], .error (.encoding f)⟩
    | .ok h =>
      let rest := extraHeaders ts
      ⟨h.notices ++ rest.notices, rest.value.map (h.value :: ·)⟩

end Settings

end RequestLog.Config
