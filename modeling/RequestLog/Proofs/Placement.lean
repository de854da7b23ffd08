/-
Where files stand in a tree. `put` and `remove` change the entry at one way
and no other, and a path that leads somewhere still leads there in a tree
that has kept its directories (`KeepsDirectories.locate`). So a log that is
written to a temporary file and moved is found where its path leads, and a
temporary file that is removed leaves no trace.
-/
import RequestLog.Writer

namespace RequestLog

namespace Tree

variable {t t' : Tree} {way w : Way} {node : Node}

/-! ## Entries -/

theorem get?_eq_none (h : t.get? way = .none) : ∀ e ∈ t.entries, (e.1 == way) = false := by
  intro e he
  rw [get?] at h
  split at h
  · cases h
  · simpa using List.find?_eq_none.1 (Option.map_eq_none_iff.1 h) e he

theorem find?_put (entries : List (Way × Node)) (h : entries.any (·.1 == way) = true) :
    (entries.map fun e => if e.1 == way then (way, node) else e).find? (·.1 == way) = .some (way, node) := by
  induction entries with
  | nil => simp at h
  | cons e entries ih =>
    rw [List.map_cons]
    cases he : e.1 == way with
    | true => simp
    | false =>
      rw [if_neg Bool.false_ne_true, List.find?_cons_of_neg (by simp [he])]
      exact ih (by simpa [he] using h)

theorem find?_put_other (entries : List (Way × Node)) (h : w ≠ way) :
    (entries.map fun e => if e.1 == way then (way, node) else e).find? (·.1 == w) =
      entries.find? (·.1 == w) := by
  induction entries with
  | nil => rfl
  | cons e entries ih =>
    rw [List.map_cons]
    cases he : e.1 == way with
    | true =>
      have hew : e.1 ≠ w := fun hw => h (by rw [← hw, beq_iff_eq.1 he])
      rw [if_pos rfl, List.find?_cons_of_neg (by simpa using h.symm), List.find?_cons_of_neg (by simpa using hew)]
      exact ih
    | false =>
      rw [if_neg Bool.false_ne_true, List.find?_cons, List.find?_cons, ih]

theorem get?_of_ne_nil (t : Tree) (hne : way ≠ []) : t.get? way = (t.entries.find? (·.1 == way)).map (·.2) := by
  rw [get?, if_neg (by simpa using hne)]

theorem get?_put_self (t : Tree) (hne : way ≠ []) (node : Node) : (t.put way node).get? way = .some node := by
  rw [get?_of_ne_nil _ hne, put]
  split
  · rename_i h
    rw [find?_put _ h]; rfl
  · rename_i h
    have hnone : t.entries.find? (·.1 == way) = .none := by
      rw [List.find?_eq_none]
      exact fun e he heq => h (List.any_eq_true.2 ⟨e, he, heq⟩)
    simp [List.find?_append, hnone]

theorem get?_put_other (t : Tree) (h : w ≠ way) (node : Node) : (t.put way node).get? w = t.get? w := by
  by_cases hne : w = []
  · subst hne; rfl
  rw [get?_of_ne_nil _ hne, get?_of_ne_nil _ hne, put]
  split
  · rw [find?_put_other t.entries h]
  · simp [List.find?_append, h.symm]

theorem get?_remove_other (t : Tree) (h : w ≠ way) : (t.remove way).get? w = t.get? w := by
  by_cases hne : w = []
  · subst hne; rfl
  rw [get?_of_ne_nil _ hne, get?_of_ne_nil _ hne, remove, List.find?_filter]
  congr 2
  funext e
  by_cases he : e.1 = w
  · simp [he, h]
  · simp [he]

theorem get?_remove_self (t : Tree) (hne : way ≠ []) : (t.remove way).get? way = .none := by
  rw [get?_of_ne_nil _ hne, remove, Option.map_eq_none_iff, List.find?_eq_none]
  intro e he
  simpa using (List.mem_filter.1 he).2

theorem here_put (t : Tree) (way : Way) (node : Node) : (t.put way node).here = t.here := by
  unfold put; split <;> rfl

/-- A new entry that is written again and removed leaves no trace. -/
theorem remove_put_put (h : t.get? way = .none) (a b : Node) : ((t.put way a).put way b).remove way = t := by
  have hfree := get?_eq_none h
  have hany : t.entries.any (·.1 == way) = false := by simpa using hfree
  have hmap : (t.entries.map fun e => if e.1 = way then (way, b) else e) = t.entries :=
    (List.map_congr_left fun e he => if_neg (beq_eq_false_iff_ne.1 (hfree e he))).trans (List.map_id _)
  have hfilter : t.entries.filter (·.1 != way) = t.entries :=
    List.filter_eq_self.2 fun e he => by simp [bne, hfree e he]
  simp [put, remove, hany, hmap, hfilter]

/-! ## Paths -/

/-- A tree in which each directory of another is one too. -/
structure KeepsDirectories (t t' : Tree) : Prop where
  here : t'.here = t.here
  directory : ∀ way, t.get? way = .some .directory → t'.get? way = .some .directory

theorem KeepsDirectories.trans {t'' : Tree} (h : KeepsDirectories t t') (h' : KeepsDirectories t' t'') :
    KeepsDirectories t t'' :=
  ⟨h'.here.trans h.here, fun way hd => h'.directory way (h.directory way hd)⟩

theorem keepsDirectories_put (h : t.get? way ≠ .some .directory) (node : Node) :
    KeepsDirectories t (t.put way node) := by
  refine ⟨here_put .., ?_⟩
  intro w hw
  have hne : w ≠ way := by
    intro heq
    exact h (heq ▸ hw)
  rwa [get?_put_other t hne]

/-- A file in a tree makes no directory. -/
theorem keepsDirectories_put_file (hne : way ≠ []) (content : Bytes) :
    KeepsDirectories (t.put way (.file content)) t := by
  refine ⟨(here_put ..).symm, ?_⟩
  intro w hw
  by_cases heq : w = way
  · rw [heq, get?_put_self t hne] at hw; cases hw
  · rwa [get?_put_other t heq] at hw

theorem keepsDirectories_remove (h : t.get? way ≠ .some .directory) : KeepsDirectories t (t.remove way) := by
  refine ⟨rfl, ?_⟩
  intro w hw
  have hne : w ≠ way := by
    intro heq
    exact h (heq ▸ hw)
  rwa [get?_remove_other t hne]

theorem KeepsDirectories.descend (h : KeepsDirectories t t') {names : List Bytes} {start stop : Way}
    (hd : t.descend start names = .ok stop) : t'.descend start names = .ok stop := by
  induction names generalizing start with
  | nil => exact hd
  | cons n ns ih =>
    unfold Tree.descend at hd ⊢
    split at hd
    · rename_i hdot
      rw [if_pos hdot]; exact ih hd
    · rename_i hdot
      rw [if_neg hdot]
      split at hd
      · rename_i hup
        rw [if_pos hup]; exact ih hd
      · rename_i hup
        rw [if_neg hup]
        split at hd
        · cases hd
        · rename_i hlong
          rw [if_neg hlong]
          split at hd
          · cases hd
          · cases hd
          · rename_i hdir
            rw [h.directory _ hdir]; exact ih hd

/-- A path that leads somewhere leads there as long as no directory is lost. -/
theorem KeepsDirectories.locate (h : KeepsDirectories t t') {path : Bytes} {spot : Spot}
    (hs : t.locate path = .ok spot) : t'.locate path = .ok spot := by
  unfold Tree.locate at hs ⊢
  split at hs
  · cases hs
  · rename_i hempty
    rw [if_neg hempty]
    split at hs
    · cases hs
    · rename_i hlong
      rw [if_neg hlong, h.here]
      simp only at hs ⊢
      rcases hd : t.descend (if path.head? == .some slash then [] else t.here) (names path).dropLast with f | stop
      · rw [hd] at hs; cases hs
      · rw [hd] at hs
        rw [h.descend hd]
        exact hs

end Tree

namespace Writer

open RequestLog.Tree

variable {t : Tree} {path : Text} {token : Bytes} {records : List (Datum × Option Datum)}

/-! ## The temporary file -/

theorem le_foldl_max (ns : List Nat) (m : Nat) : m ≤ ns.foldl max m ∧ ∀ n ∈ ns, n ≤ ns.foldl max m := by
  induction ns generalizing m with
  | nil => simp
  | cons n ns ih =>
    obtain ⟨hm, hns⟩ := ih (max m n)
    simp only [List.foldl_cons, List.mem_cons, forall_eq_or_imp]
    exact ⟨Nat.le_trans (Nat.le_max_left ..) hm, Nat.le_trans (Nat.le_max_right ..) hm, hns⟩

/-- The temporary file has a name of its own. -/
theorem get?_freshName (t : Tree) (directory : Way) (token : Bytes) :
    t.get? (directory ++ [freshName t directory token]) = .none := by
  unfold freshName
  split
  · rename_i h
    exact Option.isNone_iff_eq_none.1 h
  · -- A name longer than all others is new.
    rw [get?_of_ne_nil _ (by simp), Option.map_eq_none_iff, List.find?_eq_none]
    intro e he heq
    have hlen := (le_foldl_max (t.entries.map fun e => (e.1.getLast?.getD []).length) 0).2 _ (List.mem_map_of_mem he)
    rw [beq_iff_eq.1 heq, ← longestName] at hlen
    simp [stem] at hlen
    omega

/-! ## Writing -/

/-- A path at which a log can be written: it leads to a name in a directory, that is not the name of
a directory, and the directory of the temporary file is found. -/
structure Writable (t : Tree) (path : Text) (token : Bytes) : Prop where
  spot : ∃ bs way name, pathBytes path = .ok bs ∧ t.locate bs = .ok (.named way name false) ∧
    t.get? (way ++ [name]) ≠ .some .directory
  temporary : ∃ directory, directoryFor t path token = .ok directory

/-- A temporary file makes no directory and takes none away. -/
theorem keepsDirectories_temporary {source : Way} (hfree : t.get? source = .none) (hne : source ≠ [])
    (content : Bytes) : KeepsDirectories t ((t.put source (.file [])).put source (.file content)) ∧
      KeepsDirectories ((t.put source (.file [])).put source (.file content)) t := by
  have hbegun : (t.put source (.file [])).get? source = .some (.file []) := get?_put_self t hne _
  exact ⟨(keepsDirectories_put (by simp [hfree]) _).trans (keepsDirectories_put (by simp [hbegun]) _),
    (keepsDirectories_put_file hne content).trans (keepsDirectories_put_file hne [])⟩

/-- Where a record cannot be written the tree stays as it is. -/
theorem write_refused {directory : Way} {f : Failure} (hd : directoryFor t path token = .ok directory)
    (h : (encodeAll records).2.2 = .some f) : write t path token records = (t, .error f) := by
  simp only [write, hd, h]
  rw [remove_put_put (get?_freshName t directory token)]

theorem move_named {source way : Way} {temporary : Text} {bs name : Bytes} {node : Node}
    (hbs : pathBytes path = .ok bs) (hspot : t.locate bs = .ok (.named way name false))
    (hplace : t.get? (way ++ [name]) ≠ .some .directory) (hsource : t.get? source = .some node) :
    move t source temporary path = .ok ((t.remove source).put (way ++ [name]) node) := by
  simp only [move, hbs, hspot, hsource, Bool.false_eq_true, if_false]

theorem lookup_named {way : Way} {bs name content : Bytes} (hbs : pathBytes path = .ok bs)
    (hspot : t.locate bs = .ok (.named way name false)) (hget : t.get? (way ++ [name]) = .some (.file content)) :
    t.lookup path = .ok (.file content) := by
  have hfollow : t.follow bs = .ok (.file content) := by
    rw [follow, hspot]
    simp only [Except.bind, hget, Bool.false_eq_true, if_false]
  rw [lookup, hbs]
  simp only [Except.bind, hfollow]
  rfl

/-- A tree in which a path leads to a file with some content, and which is another tree in all else:
no entry is new, gone or different but the one the path leads to. -/
structure Replaced (t t' : Tree) (path : Text) (content : Bytes) : Prop where
  here : t'.here = t.here
  found : t'.lookup path = .ok (.file content)
  entries : ∃ bs way name, pathBytes path = .ok bs ∧ t.locate bs = .ok (.named way name false) ∧
    t'.get? (way ++ [name]) = .some (.file content) ∧ ∀ w, w ≠ way ++ [name] → t'.get? w = t.get? w

/-- **A log that is written takes the place of what its path led to, and nothing else changes.** -/
theorem write_replaces {content : Bytes} {count : Nat} (hw : Writable t path token)
    (h : encodeAll records = (content, count, .none)) :
    ∃ t', write t path token records = (t', .ok count) ∧ Replaced t t' path content := by
  obtain ⟨bs, way, name, hbs, hspot, hplace⟩ := hw.spot
  obtain ⟨directory, hd⟩ := hw.temporary
  have hfree := get?_freshName t directory token
  generalize hs : directory ++ [freshName t directory token] = source at hfree
  have hsource_ne : source ≠ [] := by rw [← hs]; simp
  have hplace_ne : way ++ [name] ≠ [] := by simp
  have hkeep := (keepsDirectories_temporary hfree hsource_ne content).1
  have hback := (keepsDirectories_temporary hfree hsource_ne content).2
  have hothers : ∀ w, w ≠ source →
      ((t.put source (.file [])).put source (.file content)).get? w = t.get? w := fun w hne => by
    rw [get?_put_other _ hne, get?_put_other _ hne]
  generalize hwr : (t.put source (.file [])).put source (.file content) = written at hkeep hback hothers
  have hwritten : written.get? source = .some (.file content) := by rw [← hwr, get?_put_self _ hsource_ne]
  have hremoved : ∀ w, (written.remove source).get? w = t.get? w := by
    intro w
    by_cases hw : w = source
    · rw [hw, get?_remove_self _ hsource_ne, hfree]
    · rw [get?_remove_other _ hw, hothers w hw]
  have hplace' : written.get? (way ++ [name]) ≠ .some .directory := fun h => hplace (hback.directory _ h)
  have hkeep' : KeepsDirectories t ((written.remove source).put (way ++ [name]) (.file content)) :=
    (hkeep.trans (keepsDirectories_remove (by simp [hwritten]))).trans
      (keepsDirectories_put (by rwa [hremoved]) _)
  have hfound := get?_put_self (written.remove source) hplace_ne (.file content)
  refine ⟨(written.remove source).put (way ++ [name]) (.file content), ?_, ?_⟩
  · simp only [write, hd, h, hs, hwr, move_named hbs (hkeep.locate hspot) hplace' hwritten]
  · refine ⟨hkeep'.here, lookup_named hbs (hkeep'.locate hspot) hfound, bs, way, name, hbs, hspot, hfound, ?_⟩
    intro w hne
    rw [get?_put_other _ hne, hremoved]

/-- A file is moved only to the name of one, in a directory. -/
theorem named_of_move {source : Way} {temporary : Text} {moved : Tree}
    (h : move t source temporary path = .ok moved) :
    ∃ bs way name, pathBytes path = .ok bs ∧ t.locate bs = .ok (.named way name false) ∧
      t.get? (way ++ [name]) ≠ .some .directory := by
  unfold move at h
  split at h
  · cases h
  · rename_i bs hbs
    split at h
    · cases h
    · cases h
    · rename_i way name slashed hspot
      split at h
      · cases h
      · rename_i hslashed
        rw [Bool.not_eq_true] at hslashed
        subst hslashed
        split at h
        · cases h
        · cases h
        · rename_i hplace
          exact ⟨bs, way, name, hbs, hspot, hplace⟩

/-- What is written has a writable path, and all its records could be. -/
theorem writable_of_write {t' : Tree} {n : Nat} (h : write t path token records = (t', .ok n)) :
    Writable t path token ∧ (encodeAll records).2.2 = .none := by
  unfold write at h
  split at h
  · cases h
  · rename_i directory hd
    simp only at h
    split at h
    · cases h
    · rename_i hfailure
      split at h
      · cases h
      · rename_i moved hmove
        obtain ⟨bs, way, name, hbs, hspot, hplace⟩ := named_of_move hmove
        obtain ⟨hkeep, hback⟩ := keepsDirectories_temporary (get?_freshName t directory token) (by simp)
          (encodeAll records).1
        exact ⟨⟨⟨bs, way, name, hbs, hback.locate hspot, fun h => hplace (hkeep.directory _ h)⟩, directory, hd⟩,
          hfailure⟩

/-- A path is writable if and only if a log without records is written there. -/
theorem writable_iff : Writable t path token ↔ ∃ t', write t path token [] = (t', .ok 0) := by
  constructor
  · intro hw
    have hnone : encodeAll [] = ([], 0, .none) := rfl
    obtain ⟨t', hwrite, _⟩ := write_replaces hw hnone
    exact ⟨t', hwrite⟩
  · rintro ⟨t', hwrite⟩
    exact (writable_of_write hwrite).1

/-- Where writing fails the tree stays as it is. -/
theorem write_failed {f : Failure} (h : (write t path token records).2 = .error f) :
    (write t path token records).1 = t := by
  unfold write at h ⊢
  split
  · rfl
  · rename_i directory hd
    have hclean := remove_put_put (get?_freshName t directory token) (.file []) (.file (encodeAll records).1)
    simp only [hd] at h ⊢
    split
    · exact hclean
    · rename_i hfailure
      simp only [hfailure] at h
      split
      · exact hclean
      · rename_i moved hmove
        rw [hmove] at h; cases h

end Writer

end RequestLog
