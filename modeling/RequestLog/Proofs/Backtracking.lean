/-
Patterns, as a backtracking matcher finds them. A run of bytes takes all that
it can and gives them back one by one where what follows fails; a part that may
be left out is left out only then. What is found first counts. A run gives
nothing back where what follows begins with no byte of its kind
(`search_plus`).
-/
import RequestLog.Bytes

namespace RequestLog.AccessLog

/-- Patterns of bytes; `done` asks for nothing more. -/
inductive Pattern where
  | done
  | byte (p : UInt8 → Bool)
  | many (p : UInt8 → Bool)
  | maybe (x : Pattern)
  | seq (x y : Pattern)
  | group (x : Pattern)

namespace Pattern

/-- What a pattern has been found to match: the bytes it took, those that its groups took, in order,
and the rest. -/
structure Match where
  taken : Bytes
  groups : List Bytes
  rest : Bytes

variable {α : Type} {p : UInt8 → Bool}

/-- Searches on after each length of a run, the longest first; some bytes of the run are taken. -/
def searchRun (p : UInt8 → Bool) (k : Match → Option α) : (taken rest : Bytes) → Option α
  | taken, [] => k ⟨taken, [], []⟩
  | taken, b :: rest =>
    if p b then (searchRun p k (taken ++ [b]) rest).or (k ⟨taken, [], b :: rest⟩)
    else k ⟨taken, [], b :: rest⟩

/-- Searches for a pattern at the beginning of a text, and on after each match of it until something is
found. -/
def search : Pattern → Bytes → (Match → Option α) → Option α
  | done, bs, k => k ⟨[], [], bs⟩
  | byte _, [], _ => .none
  | byte p, b :: bs, k => if p b then k ⟨[b], [], bs⟩ else .none
  | many p, bs, k => searchRun p k [] bs
  | maybe x, bs, k => (x.search bs k).or (k ⟨[], [], bs⟩)
  | seq x y, bs, k => x.search bs fun m =>
    y.search m.rest fun n => k ⟨m.taken ++ n.taken, m.groups ++ n.groups, n.rest⟩
  | group x, bs, k => x.search bs fun m => k ⟨m.taken, m.taken :: m.groups, m.rest⟩

/-- A byte. -/
def only (b : UInt8) : Pattern := byte (· == b)

/-- A run of bytes that is not empty. -/
def plus (p : UInt8 → Bool) : Pattern := seq (byte p) (many p)

/-! ## Runs -/

theorem searchRun_stop {k : Match → Option α} {bs : Bytes} (h : ∀ b ∈ bs.head?, p b = false) (taken : Bytes) :
    searchRun p k taken bs = k ⟨taken, [], bs⟩ := by
  cases bs with
  | nil => rfl
  | cons b bs => rw [searchRun, h b rfl, if_neg Bool.false_ne_true]

/-- A run gives nothing back where no search goes on from a byte of its kind. -/
theorem searchRun_eq {k : Match → Option α}
    (hk : ∀ taken b rest, p b = true → k ⟨taken, [], b :: rest⟩ = .none) (taken bs : Bytes) :
    searchRun p k taken bs = k ⟨taken ++ bs.takeWhile p, [], bs.dropWhile p⟩ := by
  induction bs generalizing taken with
  | nil => rw [searchRun, List.takeWhile_nil, List.dropWhile_nil, List.append_nil]
  | cons b bs ih =>
    by_cases hb : p b = true
    · rw [searchRun, if_pos hb, ih, hk _ _ _ hb, Option.or_none, List.takeWhile_cons_of_pos hb,
        List.dropWhile_cons_of_pos hb, List.append_assoc, List.singleton_append]
    · rw [searchRun, if_neg hb, List.takeWhile_cons_of_neg hb, List.dropWhile_cons_of_neg hb, List.append_nil]

theorem search_plus {k : Match → Option α} (hk : ∀ taken b rest, p b = true → k ⟨taken, [], b :: rest⟩ = .none)
    (bs : Bytes) :
    (plus p).search bs k =
      if bs.takeWhile p = [] then .none else k ⟨bs.takeWhile p, [], bs.dropWhile p⟩ := by
  cases bs with
  | nil => rfl
  | cons b bs =>
    by_cases hb : p b = true
    · rw [List.takeWhile_cons_of_pos hb, List.dropWhile_cons_of_pos hb, if_neg (List.cons_ne_nil _ _)]
      simp only [plus, search, hb, if_true]
      exact searchRun_eq (k := fun n => k ⟨[b] ++ n.taken, [] ++ n.groups, n.rest⟩)
        (fun _ c rest hc => hk _ c rest hc) [] bs
    · rw [List.takeWhile_cons_of_neg hb, if_pos rfl]
      simp only [plus, search, hb]
      rfl

/-! ## Searches that look at groups only -/

section Groups

variable {g : List Bytes → Option α} {z : Pattern}

theorem search_seq_assoc (x y z : Pattern) (bs : Bytes) :
    (seq (seq x y) z).search bs (g ·.groups) = (seq x (seq y z)).search bs (g ·.groups) := by
  simp only [search, List.append_assoc]

theorem search_many (hz : ∀ b rest, p b = true → z.search (b :: rest) (g ·.groups) = .none) (bs : Bytes) :
    (seq (many p) z).search bs (g ·.groups) = z.search (bs.dropWhile p) (g ·.groups) :=
  searchRun_eq (fun _ => hz) [] bs

end Groups

end Pattern

end RequestLog.AccessLog
