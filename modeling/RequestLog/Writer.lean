/-
Writing a log, all or nothing. The records go to a temporary file beside the
log, which then takes the log's place; where anything fails the temporary
file is removed and the tree is as before.
-/
import RequestLog.Record
import RequestLog.Tree

namespace RequestLog.Writer

/-- The bytes of records up to the first that cannot be written, their number, and why it cannot. -/
def encodeAll : List (Datum × Option Datum) → Bytes × Nat × Option Failure
  | [] => ([], 0, .none)
  | (target, header) :: rest =>
    match Record.encode target header with
    | .error f => ([], 0, .some f)
    | .ok bs =>
      let (more, n, failure) := encodeAll rest
      (bs ++ more, n + 1, failure)

/-- Targets with their headers. Without a list of headers no target has one; a list that is shorter
or longer than that of the targets pairs as far as both go. -/
def pairs (targets : List Datum) : Option (List (Option Datum)) → List (Datum × Option Datum)
  | .none => targets.map fun t => (t, .none)
  | .some headers => targets.zip headers

/-- The name of a temporary file for a token. -/
def stem (token : Bytes) : Bytes := [46, 119, 108, 111, 103, 45] ++ token

/-- The length of the longest name in a tree. -/
def longestName (t : Tree) : Nat :=
  (t.entries.map fun e => (e.1.getLast?.getD []).length).foldl max 0

/-- A name that no entry of a directory has. -/
def freshName (t : Tree) (directory : Way) (token : Bytes) : Bytes :=
  if (t.get? (directory ++ [stem token])).isNone then stem token
  else stem token ++ List.replicate (longestName t) 95

/-- The path of the temporary file for a log. -/
def temporaryPath (t : Tree) (path : Text) (token : Bytes) : Text :=
  (t.absoluteNames path).dropLast.flatMap (47 :: ·) ++ 47 :: Utf8.decodeEscaped (stem token)

/-- The directory in which the log will be. -/
def directoryFor (t : Tree) (path : Text) (token : Bytes) : Except Failure Way :=
  let temporary := temporaryPath t path token
  match Tree.pathBytes temporary with
  | .error l => .error (l.failure temporary)
  | .ok bs =>
    match t.locate bs with
    | .error f => .error (.system f temporary)
    | .ok (.named way _ _) => .ok way
    | .ok (.unnamed way) => .ok way

/-- Moves a file to where a path leads, in place of a file that may be there. -/
def move (t : Tree) (source : Way) (temporary path : Text) : Except Failure Tree :=
  let refuse (f : Tree.Fault) : Except Failure Tree := .error (.systemMove f temporary path)
  match Tree.pathBytes path with
  | .error l => .error (l.failure path)
  | .ok bs =>
    match t.locate bs with
    | .error f => refuse f
    | .ok (.unnamed _) => refuse .busy
    | .ok (.named way n slashed) =>
      if slashed then refuse .notDirectory
      else match t.get? (way ++ [n]), t.get? source with
        | .some .directory, _ => refuse .isDirectory
        | _, .none => refuse .noEntry
        | _, .some node => .ok ((t.remove source).put (way ++ [n]) node)

/-- Writes records to a log, and tells how many there are. -/
def write (t : Tree) (path : Text) (token : Bytes) (records : List (Datum × Option Datum)) :
    Tree × Except Failure Nat :=
  match directoryFor t path token with
  | .error f => (t, .error f)
  | .ok directory =>
    let way := directory ++ [freshName t directory token]
    let begun := t.put way (.file [])
    let (content, count, failure) := encodeAll records
    let written := begun.put way (.file content)
    match failure with
    | .some f => (written.remove way, .error f)
    | .none =>
      match move written way (temporaryPath t path token) path with
      | .error f => (written.remove way, .error f)
      | .ok moved => (moved, .ok count)

end RequestLog.Writer
