/-
What a caller may hand over as bytes: bytes, or a text that has bytes.
-/
import RequestLog.Utf8

namespace RequestLog

inductive Datum where
  | bytes (bs : Bytes)
  | text (t : Text)
  deriving Repr, DecidableEq

namespace Datum

def toBytes : Datum → Except EncodeFault Bytes
  | bytes bs => .ok bs
  | text t => t.toBytes

/-- The bytes of some data up to the first that has none, and why it has none. -/
def bytesOf : List Datum → List Bytes × Option EncodeFault
  | [] => ([], .none)
  | d :: ds =>
    match d.toBytes with
    | .error f => ([], .some f)
    | .ok bs => (bs :: (bytesOf ds).1, (bytesOf ds).2)

/-- The bytes of all of some data. -/
def allBytes (ds : List Datum) : Except EncodeFault (List Bytes) :=
  match bytesOf ds with
  | (bs, .none) => .ok bs
  | (_, .some f) => .error f

instance : Coe Bytes Datum := ⟨bytes⟩

end Datum

end RequestLog
