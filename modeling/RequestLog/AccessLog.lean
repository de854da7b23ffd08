/-
Access logs in the Common Log Format, of which the request field is used:

    host ident user [date] "METHOD target protocol" status size

A line that does not have this form is skipped with a notice.
-/
import RequestLog.Datum
import RequestLog.Notice

namespace RequestLog.AccessLog

structure Request where
  method : Bytes
  target : Bytes
  deriving Repr, DecidableEq

/-! ## One line -/

def isWord (b : UInt8) : Bool := !Bytes.isSpace b

def isUpper (b : UInt8) : Bool := 65 ≤ b && b ≤ 90

/-- A run of bytes of one kind that is not empty and ends at a space, and what follows the space. -/
def field? (p : UInt8 → Bool) (bs : Bytes) : Option (Bytes × Bytes) :=
  match bs.takeWhile p, bs.dropWhile p with
  | [], _ => .none
  | w, 32 :: rest => .some (w, rest)
  | _, _ => .none

/-- What follows a byte that has to be there. -/
def after? (b : UInt8) : Bytes → Option Bytes
  | [] => .none
  | c :: bs => if c == b then .some bs else .none

/-- The date in brackets; what follows it. -/
def skipDate? (bs : Bytes) : Option Bytes := (after? 91 bs).bind fun bs => (bs.cutAt 93).2

/-- A word up to its last quote, which must not be its first byte. -/
def upToLastQuote? (word : Bytes) : Option Bytes :=
  match (word.reverse.dropWhile (· != 34)).tail.reverse with
  | [] => .none
  | target => .some target

/-- The target that a request begins with. The quote that closes the request follows after a
space, or else is the last one in the word itself. -/
def target? (bs : Bytes) : Option Bytes :=
  match bs.takeWhile isWord with
  | [] => .none
  | word =>
    match bs.dropWhile isWord with
    | 32 :: rest => if rest.contains 34 then .some word else upToLastQuote? word
    | _ => upToLastQuote? word

/-- The request of a line. -/
def request? (line : Bytes) : Option Request := do
  let (_, rest) ← field? isWord line
  let (_, rest) ← field? isWord rest
  let (_, rest) ← field? isWord rest
  let rest ← skipDate? rest
  let rest ← after? 32 rest
  let rest ← after? 34 rest
  let (method, rest) ← field? isUpper rest
  return ⟨method, ← target? rest⟩

/-! ## All lines -/

/-- What was found on a line. -/
inductive Finding where
  | target (t : Bytes)
  | skipped (line : Nat)
  deriving Repr, DecidableEq

namespace Finding

def target? : Finding → Option Bytes
  | target t => .some t
  | skipped _ => .none

def notice? : Finding → Option Notice
  | target _ => .none
  | skipped line => .some (.skipped line)

/-- The notices that come before the target with a number, counted from zero. -/
def noticesBefore : (number : Nat) → List Finding → List Notice
  | _, [] => []
  | 0, target _ :: _ => []
  | n + 1, target _ :: fs => noticesBefore n fs
  | n, skipped line :: fs => .skipped line :: noticesBefore n fs

end Finding

/-- What there is on a line, if it is not blank; `wanted` holds the methods that count, or all do if
it is empty. -/
def finding? (wanted : List Bytes) (number : Nat) (line : Bytes) : Option Finding :=
  match line.strip with
  | [] => .none
  | line =>
    match request? line with
    | .none => .some (.skipped number)
    | .some r => if wanted.isEmpty || wanted.contains r.method then .some (.target r.target) else .none

/-- The findings on lines of which the first has a number. -/
def findingsFrom (wanted : List Bytes) : (number : Nat) → List Bytes → List Finding
  | _, [] => []
  | n, line :: lines => (finding? wanted n line).toList ++ findingsFrom wanted (n + 1) lines

def findings (wanted : List Bytes) (lines : List Bytes) : List Finding := findingsFrom wanted 1 lines

/-- The targets of lines that may have no bytes. The lines before the first such line are read. -/
def targetsOf (methods lines : List Datum) : Noted (Except EncodeFault (List Bytes)) :=
  match Datum.allBytes methods with
  | .error f => ⟨[], .error f⟩
  | .ok wanted =>
    let (read, fault) := Datum.bytesOf lines
    let fs := findings wanted read
    ⟨fs.filterMap Finding.notice?, match fault with
      | .some f => .error f
      | .none => .ok (fs.filterMap Finding.target?)⟩

end RequestLog.AccessLog
