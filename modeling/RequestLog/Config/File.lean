/-
Configurations in files. A file holds one value, which is a mapping; a file
without a value counts as an empty mapping.

How the bytes of a file stand for a value is left to a reader.
-/
import RequestLog.Config.Settings
import RequestLog.Tree

namespace RequestLog.Config

/-- What reads the content of a file as a value, if there is one in it. -/
class Reader where
  read : Bytes → Except Unreadable (Option Value)

/-- What is wrong with the content of a file at a path, as a failure. -/
def Unreadable.at (path : Text) : Unreadable → Failure
  | .malformed reason => .refused (.malformed path reason)
  | .noValue r => .noValue r
  | .undecodable f => .decoding f

/-- The value in the content of a file at a path. -/
def valueOfContent [Reader] (path : Text) (content : Bytes) : Except Failure Value :=
  match Reader.read content with
  | .error u => .error (u.at path)
  | .ok v => .ok (v.getD .null)

/-- The checked configuration in the file that a path leads to. -/
def load [Reader] (t : Tree) (path : Text) : Except Failure Mapping :=
  if !t.isFile path then .error (.refused (.notFound path))
  else do
    let v ← valueOfContent path (← t.read path)
    let m ← match v with
      | .map m => .ok m
      | v => if v.isVoid then .ok [] else .error (.refused (.notMapping path))
    return (← validate (← normalize (.map m))).1

end RequestLog.Config
