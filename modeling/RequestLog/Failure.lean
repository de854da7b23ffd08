/-
Why an operation fails, as causes, and the words for each. Five kinds of
failure are fatal: they end a command with an exit code of their own.
-/
import RequestLog.Config.Refusal
import RequestLog.Config.Unreadable
import RequestLog.Notice
import RequestLog.Tree.Fault
import RequestLog.Utf8

namespace RequestLog

/-- The fatal conditions. -/
inductive FatalKind where
  | general
  | config
  | logOpen
  | logEmpty
  | noRecords
  deriving Repr, DecidableEq

namespace FatalKind

def exitCode : FatalKind → Int
  | general => 1
  | config => 2
  | logOpen => 3
  | logEmpty => 4
  | noRecords => 5

/-- Whether the condition is also a refusal of the file system. -/
def isSystem : FatalKind → Bool
  | logOpen => true
  | _ => false

end FatalKind

/-- A fatal condition; a code of its own stands before that of its kind. -/
structure Fatal where
  kind : FatalKind
  message : Text
  code : Option Int := .none

def Fatal.exitCode (f : Fatal) : Int := f.code.getD f.kind.exitCode

/-- The operations that a generator refuses in the wrong stage. -/
inductive Operation where
  | openLog
  | produce
  deriving Repr, DecidableEq

def Operation.name : Operation → Text
  | .openLog => "initialize"
  | .produce => "produce_next"

inductive Failure where
  | refused (reason : Config.Refusal)
  | cannotOpen (path : Text) (fault : Tree.Fault)
  | cannotMap (path : Text) (fault : Tree.Fault)
  | emptyLog (path : Text)
  | noRecords (path : Text)
  | unfit (input : Text) (cause : Failure)
  | misfit (reason : Config.Misfit)
  | noValue (reason : Config.NoValue)
  | numeralTooLong
  | encoding (fault : EncodeFault)
  | decoding (fault : Utf8.Fault)
  | nulInPath
  | system (fault : Tree.Fault) (path : Text)
  | systemMove (fault : Tree.Fault) (source target : Text)
  | unknownLevel (name : Text)
  | noLevel (name : Text)
  | closed
  | outside
  | indexTooLarge
  | startTooLarge
  | noPath
  | noOutput
  | noMethod
  | noLimit
  | wrongStage (operation : Operation) (stage : Text)
  | invalidTarget (target : Bytes)
  | invalidHeader (header : Bytes)
  deriving Repr, DecidableEq

namespace Failure

def message : Failure → Text
  | refused r => r.message
  | cannotOpen path fault => "can't open " ++ path ++ ": " ++ fault.reason
  | cannotMap path fault => "can't mmap " ++ path ++ ": " ++ fault.bare
  | emptyLog path => "file " ++ path ++ " is empty"
  | noRecords path => path ++ " does not contain any valid URIs"
  | unfit input cause => input ++ ": " ++ cause.message
  | misfit r => r.message
  | noValue r => r.message
  | numeralTooLong =>
    "Exceeds the limit (4300 digits) for integer string conversion; use sys.set_int_max_str_digits() to " ++
      "increase the limit"
  | encoding f => f.message
  | decoding f => f.message
  | nulInPath => "embedded null byte"
  | system f path => f.about path
  | systemMove f source target => f.aboutMove source target
  | unknownLevel name => "unknown log level: " ++ name
  | noLevel name => name.quoted
  | closed => "mmap closed or invalid"
  | outside => "mmap index out of range"
  | indexTooLarge => "cannot fit 'int' into an index-sized integer"
  | startTooLarge => "Python int too large to convert to C ssize_t"
  | noPath => "log_path is required"
  | noMethod => "unhashable type: 'list'"
  | noLimit => "'<=' not supported between instances of 'int' and 'list'"
  | noOutput => "expected str, bytes or os.PathLike object, not list"
  | wrongStage operation stage => operation.name ++ "() called while " ++ stage
  | invalidTarget t => "invalid target " ++ t.quoted ++ ": must be non-empty and contain no NUL"
  | invalidHeader h => "invalid header " ++ h.quoted ++ ": must not contain NUL or \\x01"

def fatalKind? : Failure → Option FatalKind
  | refused _ => .some .config
  | cannotOpen _ _ | cannotMap _ _ => .some .logOpen
  | emptyLog _ => .some .logEmpty
  | noRecords _ => .some .noRecords
  | unfit _ _ => .some .general
  | _ => .none

/-- The fatal condition that a failure is. -/
def fatal? (f : Failure) : Option Fatal := f.fatalKind?.map (⟨·, f.message, .none⟩)

/-- Whether the file system refused. -/
def isSystem : Failure → Bool
  | system _ _ | systemMove _ _ _ => true
  | _ => false

end Failure

namespace Level

/-- The level that a name sets. -/
def chosen (name : Text) : Except Failure Level :=
  match ofName? name with
  | .some l => .ok l
  | .none => .error (.unknownLevel name)

/-- The level that a question names. -/
def asked (name : Text) : Except Failure Level :=
  match ofName? name with
  | .some l => .ok l
  | .none => .error (.noLevel name)

end Level

end RequestLog
