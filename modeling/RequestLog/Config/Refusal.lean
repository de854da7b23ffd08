/-
Why a configuration is refused. A refusal is about what the settings mean;
a misfit is about a value that is no mapping and cannot become one.
-/
import RequestLog.Text.Quoted

namespace RequestLog.Config

/-- The flags a replay has. -/
inductive Flag where
  | loop
  | embeddedHeaders
  | loopOption
  deriving Repr, DecidableEq

def Flag.name : Flag → Text
  | .loop => "wlog.loop"
  | .embeddedHeaders => "wlog.embedded_http_headers"
  | .loopOption => "--wlog loop flag"

/-- A refusal shows a refused value in its quoted form. -/
inductive Refusal where
  | flag (which : Flag) (shown : Text)
  | option (shown : Text)
  | fileMissing
  | headers
  | callCount
  | verbosity
  | notFound (path : Text)
  | notMapping (path : Text)
  | malformed (path reason : Text)
  | noLog
  | endless
  deriving Repr, DecidableEq

def Refusal.message : Refusal → Text
  | .flag which shown => which.name ++ " must be a boolean (y/n), got " ++ shown
  | .option shown => "--wlog expects LOOP,FILE (e.g. y,uris.wlog), got " ++ shown
  | .fileMissing => "wlog.file is required"
  | .headers => "add_header must be a string or a list of strings"
  | .callCount => "num_calls must be a non-negative integer"
  | .verbosity => "verbose must be a non-negative integer"
  | .notFound path => "config not found: " ++ path
  | .notMapping path => path ++ " must contain a mapping"
  | .malformed path reason => "invalid YAML in " ++ path ++ ": " ++ reason
  | .noLog => "no log file: pass --wlog LOOP,FILE or set wlog.file in --config"
  | .endless => "looping replay never ends on its own: set --num-calls"

/-- Why a value is no mapping: it has no elements, or an element of it is no pair, or the first
part of a pair cannot be a key. -/
inductive Misfit where
  | noElements (type : Text)
  | notPair (index : Nat)
  | wrongLength (index length : Nat)
  | notKey (type : Text)
  deriving Repr, DecidableEq

def Misfit.message : Misfit → Text
  | .noElements type => "'" ++ type ++ "' object is not iterable"
  | .notPair i => "cannot convert dictionary update sequence element #" ++ Text.ofNat i ++ " to a sequence"
  | .wrongLength i n =>
    "dictionary update sequence element #" ++ Text.ofNat i ++ " has length " ++ Text.ofNat n ++
      "; 2 is required"
  | .notKey type => "unhashable type: '" ++ type ++ "'"

end RequestLog.Config
