/-
Reading the text of a file piece by piece. Bytes are taken from the file in
blocks and turned into characters, and each line break becomes a line feed;
what a block does not finish waits for the next.

The bytes of a fault are met when their block is taken, and not before.
-/
import RequestLog.Utf8

namespace RequestLog.Utf8

/-- A file that is being read: the bytes to come, those that begin a character, the characters that
are read but not yet given, whether a carriage return waits for what follows it, and the last
block's numbers of bytes and characters. -/
structure Reader where
  bytes : Bytes
  unfinished : Bytes := []
  ready : Text := []
  holdsReturn : Bool := false
  blockBytes : Nat := 0
  blockLength : Nat := 0

/-- A text with a line feed for each of its line breaks, without a carriage return at its end, and
whether there was one. -/
def withLineFeeds : Text → Text × Bool
  | [] => ([], false)
  | [13] => ([], true)
  | 13 :: 10 :: t => let (t, held) := withLineFeeds t; (10 :: t, held)
  | 13 :: t => let (t, held) := withLineFeeds t; (10 :: t, held)
  | c :: t => let (t, held) := withLineFeeds t; (c :: t, held)

namespace Reader

/-- The bytes in a block, unless more are wanted. -/
def leastBlock : Nat := 8192

/-- The bytes in the next block, to get a number of characters that take as much as the last did. -/
def blockSize (r : Reader) (wanted : Nat) : Nat :=
  max leastBlock (max wanted (r.blockBytes * wanted / r.blockLength))

theorem blockSize_pos (r : Reader) (wanted : Nat) : 0 < r.blockSize wanted :=
  Nat.lt_of_lt_of_le (by decide) (Nat.le_max_left ..)

/-- The reader after a block of some bytes: its characters, the bytes it leaves unfinished, and those
after it. -/
def add (r : Reader) (size : Nat) (t : Text) (unfinished bytes : Bytes) : Reader :=
  let (t, held) := withLineFeeds (if r.holdsReturn then 13 :: t else t)
  ⟨bytes, unfinished, r.ready ++ t, held, size, t.length⟩

/-- The reader at the end of its file, where no character may be unfinished. -/
def finish (r : Reader) : Except Fault Reader :=
  match r.unfinished with
  | [] => .ok { r with ready := if r.holdsReturn then r.ready ++ [10] else r.ready, holdsReturn := false }
  | b :: bs => .error ⟨b, 0, bs.length + 1, .cutShort⟩

/-- The first of the characters that are ready, up to a number. -/
def give (r : Reader) (wanted : Nat) : Text × Reader :=
  (r.ready.take wanted, { r with ready := r.ready.drop wanted })

/-- The next characters, as many as are wanted unless the file ends before. The place of a fault is
counted in its block, before which the unfinished bytes of the last block stand. -/
def read (wanted : Nat) (r : Reader) : Except Fault (Text × Reader) :=
  if wanted ≤ r.ready.length then .ok (r.give wanted)
  else match h : r.bytes with
    | [] => r.finish.map (·.give wanted)
    | b :: bs =>
      let size := r.blockSize (wanted - r.ready.length)
      have hsize : 0 < size := r.blockSize_pos _
      have : ((b :: bs).drop size).length < r.bytes.length := by
        rw [h, List.length_drop, List.length_cons]
        omega
      match decodeBlock 0 (r.unfinished ++ (b :: bs).take size) with
      | .error f => .error f
      | .ok (t, unfinished) =>
        read wanted (r.add ((b :: bs).take size).length t unfinished ((b :: bs).drop size))
termination_by r.bytes.length

end Reader

end RequestLog.Utf8
