/-
A tree of files and directories with a working directory, and where a path
leads in it. Entries are named by the way to them from the root.

A path goes down one directory at a time, so that each name on the way but
the last has to be a directory, also where `..` would take it back.
-/
import RequestLog.Failure

namespace RequestLog

/-- The names from the root to an entry. -/
abbrev Way := List Bytes

namespace Tree

inductive Node where
  | file (content : Bytes)
  | directory
  deriving Repr, DecidableEq

end Tree

structure Tree where
  here : Way
  entries : List (Way × Tree.Node)
  deriving Repr, DecidableEq

namespace Tree

/-! ## Entries -/

/-- The entry at the end of a way; the root is a directory. -/
def get? (t : Tree) (way : Way) : Option Node :=
  if way.isEmpty then .some .directory else (t.entries.find? (·.1 == way)).map (·.2)

/-- The tree with an entry, in place of one that may have been there. -/
def put (t : Tree) (way : Way) (node : Node) : Tree :=
  if t.entries.any (·.1 == way) then
    { t with entries := t.entries.map fun e => if e.1 == way then (way, node) else e }
  else { t with entries := t.entries ++ [(way, node)] }

def remove (t : Tree) (way : Way) : Tree := { t with entries := t.entries.filter (·.1 != way) }

/-- The directories above a way, from the root on. -/
def above : Way → List Way
  | [] => []
  | n :: ns => [] :: (above ns).map (n :: ·)

/-- The tree with an entry and all directories above it. -/
def add (t : Tree) (way : Way) (node : Node) : Tree :=
  ((above way).filter (!·.isEmpty)).foldl
    (fun t w => if (t.get? w).isSome then t else t.put w .directory) t |>.put way node

/-! ## Paths -/

abbrev slash : UInt8 := 47

/-- The names in a path. -/
def names (path : Bytes) : List Bytes :=
  (path.splitBy fun a b => (a == slash) == (b == slash)).filter fun n => n.head? != .some slash

def isDot (name : Bytes) : Bool := name == [46]

def isDotDot (name : Bytes) : Bool := name == [46, 46]

/-- The longest name that an entry may have. -/
def maxName : Nat := 255

/-- The longest path that is followed. -/
def maxPath : Nat := 4095

/-- Goes down from a directory through directories only. -/
def descend (t : Tree) : Way → List Bytes → Except Fault Way
  | way, [] => .ok way
  | way, n :: ns =>
    if isDot n then t.descend way ns
    else if isDotDot n then t.descend way.dropLast ns
    else if maxName < n.length then .error .nameTooLong
    else match t.get? (way ++ [n]) with
      | .none => .error .noEntry
      | .some (.file _) => .error .notDirectory
      | .some .directory => t.descend (way ++ [n]) ns

/-- Where a path leads: to a name in a directory, which has to be one itself if slashes follow it,
or to a directory that it reaches without naming it. -/
inductive Spot where
  | named (directory : Way) (name : Bytes) (slashed : Bool)
  | unnamed (directory : Way)
  deriving Repr, DecidableEq

def locate (t : Tree) (path : Bytes) : Except Fault Spot :=
  if path.isEmpty then .error .noEntry
  else if maxPath < path.length then .error .nameTooLong
  else
    let ns := names path
    let start := if path.head? == .some slash then [] else t.here
    (t.descend start ns.dropLast).bind fun way =>
      match ns.getLast? with
      | .none => .ok (.unnamed way)
      | .some n =>
        if isDot n then .ok (.unnamed way)
        else if isDotDot n then .ok (.unnamed way.dropLast)
        else if maxName < n.length then .error .nameTooLong
        else .ok (.named way n (path.getLast? == .some slash))

/-- What a path leads to. -/
def follow (t : Tree) (path : Bytes) : Except Fault Node :=
  (t.locate path).bind fun
    | .unnamed _ => .ok .directory
    | .named way n slashed =>
      match t.get? (way ++ [n]) with
      | .none => .error .noEntry
      | .some .directory => .ok .directory
      | .some (.file content) => if slashed then .error .notDirectory else .ok (.file content)

/-- Why a text leads to no entry: it has no bytes, or it holds a NUL, or the tree refuses it. -/
inductive Lost where
  | encoding (fault : EncodeFault)
  | nul
  | refused (fault : Fault)
  deriving Repr, DecidableEq

/-- The bytes of a path. -/
def pathBytes (path : Text) : Except Lost Bytes :=
  match path.toBytes with
  | .error f => .error (.encoding f)
  | .ok bs => if bs.contains 0 then .error .nul else .ok bs

/-- What a text leads to. -/
def lookup (t : Tree) (path : Text) : Except Lost Node :=
  (pathBytes path).bind fun bs => (t.follow bs).mapError .refused

def Lost.failure (path : Text) : Lost → Failure
  | .encoding f => .encoding f
  | .nul => .nulInPath
  | .refused f => .system f path

/-- Whether a text leads to a file. -/
def isFile (t : Tree) (path : Text) : Bool :=
  match t.lookup path with
  | .ok (.file _) => true
  | _ => false

/-- The content of the file that a text leads to. -/
def read (t : Tree) (path : Text) : Except Failure Bytes :=
  match t.lookup path with
  | .ok (.file content) => .ok content
  | .ok .directory => .error (.system .isDirectory path)
  | .error l => .error (l.failure path)

/-- The ways to what names lead past, one after the other. -/
def waysFrom : Way → List Bytes → List Way
  | _, [] => []
  | way, n :: ns =>
    if isDot n then waysFrom way ns
    else if isDotDot n then waysFrom way.dropLast ns
    else (way ++ [n]) :: waysFrom (way ++ [n]) ns

/-- The ways to what a path leads past, from the root on. -/
def waysOf (t : Tree) (path : Bytes) : List Way :=
  waysFrom [] (if path.head? == .some slash then names path else t.here ++ names path)

/-! ## Ways as texts -/

/-- The names in a text, without dots and with each `..` applied to the name before it. -/
def normalNames (path : Text) : List Text :=
  go (path.splitBy fun a b => (a == 47) == (b == 47)) []
where
  go : List Text → List Text → List Text
    | [], done => done.reverse
    | n :: ns, done =>
      if n.head? == .some 47 || n == [46] then go ns done
      else if n == [46, 46] then go ns done.tail
      else go ns (n :: done)

/-- A way as a path. -/
def wayText (way : Way) : Text := way.flatMap fun n => 47 :: Utf8.decodeEscaped n

/-- The names from the root to where a text leads, whether or not the directories on it exist. -/
def absoluteNames (t : Tree) (path : Text) : List Text :=
  if path.head? == .some 47 then normalNames path else normalNames (wayText t.here ++ 47 :: path)

end Tree

end RequestLog
