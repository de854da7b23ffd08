/-
The text of a document, as far as it can be read. It is read in pieces. A
piece of bytes that stand for no text, or with a character that no document
may hold, is an obstacle to reading on: it counts only once a reader comes to
its beginning.
-/
import RequestLog.Utf8.Reader
import RequestLog.Yaml.Fault

namespace RequestLog.Yaml

/-- The characters a document may hold. -/
def isAllowed (c : Nat) : Bool :=
  c == 9 || c == 10 || c == 13 || (0x20 ≤ c && c ≤ 0x7E) || c == 0x85 || (0xA0 ≤ c && c ≤ 0xD7FF) ||
    (0xE000 ≤ c && c ≤ 0xFFFD) || (0x10000 ≤ c && c ≤ 0x10FFFF)

/-- What can be read, and what stands behind it if that is not the end. -/
structure Source where
  text : List Char
  obstacle : Option Fault := .none

namespace Source

/-- The characters in a piece. -/
def pieceLength : Nat := 4096

/-- Two pieces, taken as one. -/
def twoPieces (r : Utf8.Reader) : Except Utf8.Fault (Text × Utf8.Reader) := do
  let (t, r) ← r.read pieceLength
  let (t', r) ← r.read pieceLength
  return (t ++ t', r)

/-- The text from a piece on, up to the end or to an obstacle. -/
def ofPieces : (fuel : Nat) → Except Utf8.Fault (Text × Utf8.Reader) → Source
  | _, .error f => ⟨[], .some (.undecodable f)⟩
  | 0, .ok _ => ⟨[], .none⟩
  | fuel + 1, .ok (t, r) =>
    if t.isEmpty then ⟨[], .none⟩
    else if !t.all isAllowed then ⟨[], .some (.malformed .unprintable)⟩
    else
      let s := ofPieces fuel (r.read pieceLength)
      { s with text := t.map Char.ofNat ++ s.text }

/-- The text of a file. Reading begins with two pieces at once, and no piece but the last is without a
character. -/
def ofBytes (bs : Bytes) : Source := ofPieces (bs.length + 1) (twoPieces { bytes := bs })

end Source

end RequestLog.Yaml
