/-
What a file system answers when a path leads nowhere.
-/
import RequestLog.Text.Quoted

namespace RequestLog.Tree

inductive Fault where
  | noEntry
  | notDirectory
  | isDirectory
  | nameTooLong
  | busy
  | noDevice
  deriving Repr, DecidableEq

namespace Fault

def number : Fault → Nat
  | noEntry => 2
  | busy => 16
  | noDevice => 19
  | notDirectory => 20
  | isDirectory => 21
  | nameTooLong => 36

def reason : Fault → Text
  | noEntry => "No such file or directory"
  | busy => "Device or resource busy"
  | noDevice => "No such device"
  | notDirectory => "Not a directory"
  | isDirectory => "Is a directory"
  | nameTooLong => "File name too long"

/-- The fault with its number, as a message about no path. -/
def bare (f : Fault) : Text := "[Errno " ++ Text.ofNat f.number ++ "] " ++ f.reason

/-- The fault of a path. -/
def about (f : Fault) (path : Text) : Text := f.bare ++ ": " ++ path.quoted

/-- The fault of a move. -/
def aboutMove (f : Fault) (source target : Text) : Text :=
  f.about source ++ " -> " ++ target.quoted

end Fault

end RequestLog.Tree
