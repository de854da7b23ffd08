/-
What a program reports on the side: levels and notices. Every operation
returns all its notices in order; a level only chooses which of them are
shown, so that no result depends on it.
-/
import RequestLog.Text.Quoted

namespace RequestLog

inductive Level where
  | debug
  | info
  | warn
  | error
  deriving Repr, DecidableEq

namespace Level

def rank : Level → Nat
  | .debug => 10
  | .info => 20
  | .warn => 25
  | .error => 30

/-- Notices of a level are shown from that level down. -/
def admits (shown : Level) (l : Level) : Bool := shown.rank ≤ l.rank

def name : Level → Text
  | .debug => "debug"
  | .info => "info"
  | .warn => "warn"
  | .error => "error"

def all : List Level := [.debug, .info, .warn, .error]

def ofName? (t : Text) : Option Level := all.find? (·.name == t)

end Level

inductive Notice where
  | trailingBackslash (source : Text)
  | unknownEscape (b : UInt8) (source : Text)
  | mapped (path : Text) (size : Nat)
  | generated (header target : Bytes)
  | accessing (target : Bytes)
  | skipped (line : Nat)
  | issued (calls : Nat)
  | remark (level : Level) (text : Text)
  deriving Repr, DecidableEq

namespace Notice

def level : Notice → Level
  | trailingBackslash _ => .warn
  | unknownEscape _ _ => .warn
  | mapped _ _ => .debug
  | generated _ _ => .debug
  | accessing _ => .info
  | skipped _ => .debug
  | issued _ => .debug
  | remark l _ => l

/-- Some notices are only made on a level that shows them; the others are made on any level. -/
def isGuarded : Notice → Bool
  | generated _ _ => true
  | _ => false

def text : Notice → Text
  | trailingBackslash source => "wlog: ignoring trailing backslash in " ++ source
  | unknownEscape b source =>
    "wlog: ignoring unknown escape sequence `\\" ++ b.toNat :: "' in " ++ source
  | mapped path size =>
    "wlog: mapped " ++ path ++ " (" ++ Text.ofNat size ++ " bytes)"
  | generated header target =>
    "wlog: generated http headers [" ++ header.quoted ++ "] uri [" ++
      target.quoted ++ "]"
  | accessing target => "wlog: accessing URI `" ++ Text.ofLatin target ++ "'"
  | skipped line =>
    "wlog build: skipping line " ++ Text.ofNat line ++ ": not a CLF request"
  | issued calls => "wlog: issued " ++ Text.ofNat calls ++ " calls"
  | remark _ t => t

/-- The lines that a level shows. -/
def shown (l : Level) (ns : List Notice) : List Text :=
  (ns.filter (l.admits ·.level)).map text

end Notice

/-- A result and the notices on the way to it. -/
structure Noted (α : Type) where
  notices : List Notice
  value : α

end RequestLog
