/-
Why the words of a command line are not carried out: they ask for help, or
they do not fit what the program takes.
-/
import RequestLog.Text.Quoted

namespace RequestLog.CommandLine

/-- What is wrong with the argument of a switch or an operand. -/
inductive Objection where
  | missing
  | unwanted (given : Text)
  | notInteger (given : Text)
  | notChoice (given : Text) (choices : List Text)
  deriving Repr, DecidableEq

def Objection.message : Objection → Text
  | .missing => "expected one argument"
  | .unwanted t => "ignored explicit argument " ++ t.quoted
  | .notInteger t => "invalid int value: " ++ t.quoted
  | .notChoice t choices =>
    "invalid choice: " ++ t.quoted ++ " (choose from " ++ Text.join ", " (choices.map Text.quoted) ++ ")"

inductive Rejection where
  | argument (name : Text) (objection : Objection)
  | ambiguous (word : Text) (names : List Text)
  | missing (names : List Text)
  | unknown (words : List Text)
  deriving Repr, DecidableEq

def Rejection.message : Rejection → Text
  | .argument name o => "argument " ++ name ++ ": " ++ o.message
  | .ambiguous word names => "ambiguous option: " ++ word ++ " could match " ++ Text.join ", " names
  | .missing names => "the following arguments are required: " ++ Text.join ", " names
  | .unknown words => "unrecognized arguments: " ++ Text.join " " words

/-- Why a program stops at its words. -/
inductive Stop where
  | help (program : Text)
  | rejected (program : Text) (reason : Rejection)
  deriving Repr, DecidableEq

namespace Stop

def exitCode : Stop → Int
  | .help _ => 0
  | .rejected _ _ => 2

/-- What a program says of a rejection. -/
def complaint? : Stop → Option Text
  | .help _ => .none
  | .rejected program reason => .some (program ++ ": error: " ++ reason.message)

end Stop

end RequestLog.CommandLine
