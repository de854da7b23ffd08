/-
Where the temporary file for a log is. A path is followed name by name, and
the path of the temporary file is made of the path's text with its dots
worked out. Both lead to the same directory if the working directory and all
those above it are there (`directoryFor_eq`). So a log can be written where its
path leads to a name in a directory, unless that is the name of one
(`writable_iff_placeable`).
-/
import Mathlib.Data.List.SplitBy
import RequestLog.Proofs.Encoding
import RequestLog.Proofs.Placement

namespace RequestLog

/-! ## What stands between slashes -/

section Parts

variable {α : Type} [BEq α] [LawfulBEq α] {x : α}

/-- What there is between occurrences of an element. -/
def parts (x : α) (l : List α) : List (List α) := (l.splitOn x).filter fun p => !p.isEmpty

theorem parts_cut (x : α) (l r : List α) : parts x (l ++ x :: r) = parts x l ++ parts x r := by
  rw [parts, List.splitOn_append_cons_self, List.filter_append]
  rfl

theorem parts_whole {l : List α} (hl : x ∉ l) (hne : l ≠ []) : parts x l = [l] := by
  simp [parts, List.splitOn_eq_singleton hl, hne]

theorem parts_nil (x : α) : parts x [] = [] := by
  simp [parts, List.splitOn_eq_singleton]

/-- Parts one after the other, each with the element ahead of it, fall apart again. -/
theorem parts_flatMap {ps : List (List α)} (h : ∀ p ∈ ps, x ∉ p ∧ p ≠ []) (l : List α) :
    parts x (l ++ ps.flatMap (x :: ·)) = parts x l ++ ps := by
  induction ps generalizing l with
  | nil => simp
  | cons p ps ih =>
    obtain ⟨hp, hne⟩ := h p List.mem_cons_self
    rw [List.flatMap_cons, List.cons_append, parts_cut, ih fun q hq => h q (List.mem_cons_of_mem p hq),
      parts_whole hp hne]
    rfl

/-- A list has no occurrence of an element, or is cut at the first. -/
@[elab_as_elim]
theorem cut_induction {motive : List α → Prop} (x : α) (whole : ∀ l, x ∉ l → motive l)
    (cut : ∀ l r, x ∉ l → motive r → motive (l ++ x :: r)) (l : List α) : motive l := by
  generalize hn : l.length = n
  induction n using Nat.strongRecOn generalizing l with
  | ind n ih =>
    by_cases h : x ∈ l
    · obtain ⟨l, r, rfl, hl⟩ := List.eq_append_cons_of_mem h
      refine cut l r hl (ih r.length ?_ r rfl)
      simp only [List.length_append, List.length_cons] at hn
      omega
    · exact whole l h

theorem mem_parts {l p : List α} (h : p ∈ parts x l) : x ∉ p ∧ p ≠ [] ∧ ∀ a ∈ p, a ∈ l := by
  have hwhole : ∀ l, x ∉ l → p ∈ parts x l → x ∉ p ∧ p ≠ [] ∧ ∀ a ∈ p, a ∈ l := by
    intro l hl h
    rw [parts, List.splitOn_eq_singleton hl, List.mem_filter, List.mem_singleton] at h
    obtain ⟨rfl, hne⟩ := h
    exact ⟨hl, by simpa using hne, fun _ ha => ha⟩
  induction l using cut_induction x with
  | whole l hl => exact hwhole l hl h
  | cut l r hl ih =>
    rw [parts_cut, List.mem_append] at h
    rcases h with h | h
    · obtain ⟨hp, hne, hsub⟩ := hwhole l hl h
      exact ⟨hp, hne, fun a ha => List.mem_append_left _ (hsub a ha)⟩
    · obtain ⟨hp, hne, hsub⟩ := ih h
      exact ⟨hp, hne, fun a ha => List.mem_append_right _ (List.mem_cons_of_mem x (hsub a ha))⟩

theorem parts_cons_self (x : α) (l : List α) : parts x (x :: l) = parts x l := by
  have hcut := parts_cut x [] l
  rw [parts_nil] at hcut
  exact hcut

theorem parts_run {run : List α} (hrun : ∀ b ∈ run, b = x) (l : List α) : parts x (run ++ l) = parts x l := by
  induction run with
  | nil => rfl
  | cons b run ih =>
    obtain rfl := hrun b List.mem_cons_self
    rw [List.cons_append, parts_cons_self, ih fun c hc => hrun c (List.mem_cons_of_mem b hc)]

/-- Whether a run is not one of an element. -/
def isOther (x : α) (run : List α) : Bool := run.head? != .some x

/-- A list begins with a run, of an element or of others, that cannot be longer. -/
theorem exists_run (x a : α) (l : List α) :
    ∃ run rest, a :: l = run ++ rest ∧ run ≠ [] ∧ (∀ b ∈ run, (b == x) = (a == x)) ∧
      ∀ b ∈ rest.head?, (b == x) ≠ (a == x) := by
  induction l generalizing a with
  | nil => exact ⟨[a], [], rfl, List.cons_ne_nil _ _, by simp, nofun⟩
  | cons b l ih =>
    by_cases hb : (b == x) = (a == x)
    · obtain ⟨run, rest, hl, hne, hrun, hrest⟩ := ih b
      rw [hb] at hrun hrest
      exact ⟨a :: run, rest, by rw [hl]; rfl, List.cons_ne_nil _ _, List.forall_mem_cons.2 ⟨rfl, hrun⟩, hrest⟩
    · refine ⟨[a], b :: l, rfl, List.cons_ne_nil _ _, by simp, ?_⟩
      intro c hc
      cases hc
      exact hb

/-- **The runs of others than an element are the parts between its occurrences.** -/
theorem filter_splitBy (x : α) (l : List α) :
    (l.splitBy fun a b => (a == x) == (b == x)).filter (isOther x) = parts x l := by
  generalize hn : l.length = n
  induction n using Nat.strongRecOn generalizing l with
  | ind n ih =>
    cases l with
    | nil => exact (parts_nil x).symm
    | cons a l =>
      obtain ⟨run, rest, hl, hne, hrun, hrest⟩ := exists_run x a l
      have hshorter : rest.length < n := by
        have hlength := congrArg List.length hl
        have hpos := List.length_pos_iff.2 hne
        simp only [List.length_append, List.length_cons] at hlength hn
        omega
      have hone : run.splitBy (fun a b => (a == x) == (b == x)) = [run] := by
        refine List.splitBy_of_isChain hne (List.pairwise_of_forall_mem_list fun b hb c hc => ?_).isChain
        rw [hrun b hb, hrun c hc, BEq.rfl]
      have hcut : (run ++ rest).splitBy (fun a b => (a == x) == (b == x)) =
          [run] ++ rest.splitBy fun a b => (a == x) == (b == x) := by
        rw [← hone]
        refine List.splitBy_append fun b hb c hc => ?_
        rw [hrun b (List.mem_of_getLast? hb)]
        exact beq_eq_false_iff_ne.2 (hrest c hc).symm
      rw [hl, hcut, List.filter_append, ih rest.length hshorter rest rfl]
      by_cases ha : a = x
      · subst ha
        have hself : ∀ b ∈ run, b = a := fun b hb => by simpa using hrun b hb
        have hout : isOther a run = false := by
          obtain ⟨b, bs, rfl⟩ := List.exists_cons_of_ne_nil hne
          rw [hself b List.mem_cons_self]
          simp [isOther]
        rw [parts_run hself, List.filter_cons_of_neg (by simp [hout])]
        rfl
      · have hmem : x ∉ run := fun hx => ha (by simpa using hrun x hx)
        have hin : isOther x run = true := by
          obtain ⟨b, bs, rfl⟩ := List.exists_cons_of_ne_nil hne
          simpa [isOther] using fun hb : b = x => hmem (hb ▸ List.mem_cons_self)
        have hparts : parts x (run ++ rest) = [run] ++ parts x rest := by
          cases rest with
          | nil => rw [List.append_nil, parts_whole hmem hne, parts_nil]; rfl
          | cons c rest =>
            obtain rfl : c = x := by simpa [ha] using hrest c rfl
            rw [parts_cut, parts_cons_self, parts_whole hmem hne]
        rw [hparts, List.filter_cons_of_pos hin]
        rfl

end Parts

/-! ## Names as texts -/

namespace Text

/-- The parts of a text are those of its bytes. -/
theorem parts_encoded {t : Text} (ht : ∀ c ∈ t, HasBytes c) :
    parts Tree.slash t.encoded = (parts 47 t).map encoded := by
  have hwhole : ∀ t : Text, (∀ c ∈ t, HasBytes c) → 47 ∉ t →
      parts Tree.slash t.encoded = (parts 47 t).map encoded := by
    intro t ht hmem
    by_cases hne : t = []
    · subst hne
      rw [parts_nil]
      exact parts_nil _
    · have hslash : Tree.slash ∉ t.encoded := fun h => hmem (mem_of_mem_encoded ht (b := 47) (by decide) h)
      rw [parts_whole hmem hne, parts_whole hslash (encoded_ne_nil hne)]
      rfl
  induction t using cut_induction 47 with
  | whole t hmem => exact hwhole t ht hmem
  | cut t r hmem ih =>
    have hcut : encoded (t ++ 47 :: r) = encoded t ++ Tree.slash :: encoded r := encoded_append t (47 :: r)
    have hfirst := hwhole t (fun c hc => ht c (List.mem_append_left _ hc)) hmem
    have hrest := ih fun c hc => ht c (List.mem_append_right _ (List.mem_cons_of_mem 47 hc))
    rw [hcut, parts_cut, parts_cut, List.map_append, hfirst, hrest]

end Text

namespace Tree

open Text (HasBytes encoded)
open Utf8 (decodeEscaped encoded_decodeEscaped)

variable {t : Tree} {path : Text} {way : Way}

theorem names_eq (path : Bytes) : names path = parts slash path := filter_splitBy slash path

/-- A text that names an entry of a directory, or is one or two dots. -/
structure NameText (n : Text) : Prop where
  hasBytes : ∀ c ∈ n, HasBytes c
  slash : 47 ∉ n
  ne_nil : n ≠ []

theorem NameText.isDot {n : Text} (h : NameText n) : (n == [46]) = isDot n.encoded := by
  rw [Tree.isDot, Bool.eq_iff_iff, beq_iff_eq, beq_iff_eq]
  exact Text.eq_iff_encoded_eq [46] h.hasBytes (by simp)

theorem NameText.isDotDot {n : Text} (h : NameText n) : (n == [46, 46]) = isDotDot n.encoded := by
  rw [Tree.isDotDot, Bool.eq_iff_iff, beq_iff_eq, beq_iff_eq]
  exact Text.eq_iff_encoded_eq [46, 46] h.hasBytes (by simp)

theorem NameText.head {n : Text} (h : NameText n) : (n.head? == .some 47) = false := by
  cases n with
  | nil => exact absurd rfl h.ne_nil
  | cons c cs => simpa using fun hc : c = 47 => h.slash (hc ▸ List.mem_cons_self)

theorem go_filter (ns done : List Text) :
    normalNames.go ns done = normalNames.go (ns.filter (isOther 47)) done := by
  induction ns generalizing done with
  | nil => rfl
  | cons n ns ih =>
    cases hn : isOther 47 n with
    | true =>
      have hhead : (n.head? == .some 47) = false := by simpa [isOther] using hn
      simp only [List.filter_cons, hn, if_true, normalNames.go, hhead, Bool.false_or, ih]
    | false =>
      have hhead : (n.head? == .some 47) = true := by simpa [isOther] using hn
      simp only [List.filter_cons, hn, Bool.false_eq_true, if_false, normalNames.go, hhead, Bool.true_or, if_true, ih]

theorem normalNames_eq (path : Text) : normalNames path = normalNames.go (parts 47 path) [] := by
  rw [normalNames, go_filter, filter_splitBy]

/-- Working out the dots of names leads where following them does. -/
theorem go_of_descend {ns done : List Text} (rest : List Text) (hns : ∀ n ∈ ns, NameText n)
    (hdone : ∀ n ∈ done, NameText n) (h : t.descend (done.reverse.map encoded) (ns.map encoded) = .ok way) :
    ∃ done', normalNames.go (ns ++ rest) done = normalNames.go rest done' ∧ (∀ n ∈ done', NameText n) ∧
      done'.reverse.map encoded = way := by
  induction ns generalizing done with
  | nil => exact ⟨done, rfl, hdone, Except.ok.inj h⟩
  | cons n ns ih =>
    have hn := hns n List.mem_cons_self
    have hrest : ∀ n ∈ ns, NameText n := fun m hm => hns m (List.mem_cons_of_mem n hm)
    simp only [List.map_cons, descend, ← hn.isDot, ← hn.isDotDot] at h
    simp only [List.cons_append, normalNames.go, hn.head, Bool.false_or]
    split at h
    · rename_i hdot
      rw [if_pos hdot]
      exact ih hrest hdone h
    rename_i hdot
    rw [if_neg hdot]
    split at h
    · rename_i hdots
      rw [if_pos hdots]
      refine ih hrest (fun m hm => hdone m (List.mem_of_mem_tail hm)) ?_
      rw [← h, ← List.map_dropLast, List.dropLast_reverse]
    rename_i hdots
    rw [if_neg hdots]
    split at h
    · cases h
    split at h
    · cases h
    · cases h
    · refine ih hrest (List.forall_mem_cons.2 ⟨hn, hdone⟩) ?_
      rw [← h, List.reverse_cons, List.map_append]
      rfl

/-! ## Ways that stand -/

/-- A name that an entry may have. -/
structure IsName (n : Bytes) : Prop where
  slash : slash ∉ n
  nul : 0 ∉ n
  ne_nil : n ≠ []
  dot : isDot n = false
  dotDot : isDotDot n = false
  length : n.length ≤ maxName

/-- A way whose names are such and on which there are directories throughout. -/
structure Stands (t : Tree) (way : Way) : Prop where
  names : ∀ n ∈ way, IsName n
  directory : ∀ w, w <+: way → t.get? w = .some .directory

theorem Stands.concat {n : Bytes} (h : t.Stands way) (hn : IsName n) (hdir : t.get? (way ++ [n]) = .some .directory) :
    t.Stands (way ++ [n]) := by
  refine ⟨?_, ?_⟩
  · intro m hm
    rcases List.mem_append.1 hm with hm | hm
    · exact h.names m hm
    · exact List.mem_singleton.1 hm ▸ hn
  · intro w hw
    rcases List.prefix_concat_iff.1 hw with rfl | hw
    · exact hdir
    · exact h.directory w hw

theorem Stands.dropLast (h : t.Stands way) : t.Stands way.dropLast :=
  ⟨fun n hn => h.names n (List.dropLast_subset way hn), fun w hw => h.directory w (hw.trans (List.dropLast_prefix way))⟩

/-- Going down from where the directories are there leads to where they are. -/
theorem Stands.descend {ns : List Bytes} {start : Way} (h : t.Stands start)
    (hns : ∀ n ∈ ns, slash ∉ n ∧ 0 ∉ n ∧ n ≠ []) (hdown : t.descend start ns = .ok way) : t.Stands way := by
  induction ns generalizing start with
  | nil => exact Except.ok.inj hdown ▸ h
  | cons n ns ih =>
    have hrest : ∀ n ∈ ns, slash ∉ n ∧ 0 ∉ n ∧ n ≠ [] := fun m hm => hns m (List.mem_cons_of_mem n hm)
    unfold Tree.descend at hdown
    split at hdown
    · exact ih h hrest hdown
    split at hdown
    · exact ih h.dropLast hrest hdown
    split at hdown
    · cases hdown
    rename_i hdot hdots hlength
    split at hdown
    · cases hdown
    · cases hdown
    · rename_i hdir
      obtain ⟨hslash, hnul, hne⟩ := hns n List.mem_cons_self
      exact ih (h.concat ⟨hslash, hnul, hne, by simpa using hdot, by simpa using hdots, by omega⟩ hdir) hrest hdown

/-- A way that stands is gone down. -/
theorem descend_stands {start ns : Way} (h : t.Stands (start ++ ns)) : t.descend start ns = .ok (start ++ ns) := by
  induction ns generalizing start with
  | nil => rw [List.append_nil]; rfl
  | cons n ns ih =>
    have hn := h.names n (by simp)
    have hdir := h.directory (start ++ [n]) ⟨ns, by simp⟩
    have hlength : ¬ maxName < n.length := Nat.not_lt.2 hn.length
    have hnext : t.descend (start ++ [n]) ns = .ok (start ++ [n] ++ ns) := ih (by simpa using h)
    rw [List.append_cons, ← hnext, Tree.descend, hn.dot, hn.dotDot, if_neg Bool.false_ne_true,
      if_neg Bool.false_ne_true, if_neg hlength, hdir]

theorem descend_append (start : Way) (ns ms : List Bytes) :
    t.descend start (ns ++ ms) = (t.descend start ns).bind fun way => t.descend way ms := by
  induction ns generalizing start with
  | nil => rfl
  | cons n ns ih =>
    simp only [List.cons_append, Tree.descend]
    split
    · exact ih start
    split
    · exact ih start.dropLast
    split
    · rfl
    cases t.get? (start ++ [n]) with
    | none => rfl
    | some node => cases node with
      | file content => rfl
      | directory => exact ih (start ++ [n])

theorem stands_nil (t : Tree) : t.Stands [] := by
  refine ⟨nofun, fun w hw => ?_⟩
  rw [List.prefix_nil.1 hw]
  rfl

/-! ## Where a path leads -/

theorem descend_of_locate {bs name : Bytes} {slashed : Bool} (h : t.locate bs = .ok (.named way name slashed)) :
    t.descend (if bs.head? == .some slash then [] else t.here) (names bs).dropLast = .ok way ∧
      (names bs).getLast? = .some name ∧ isDot name = false ∧ isDotDot name = false := by
  unfold locate at h
  split at h
  · cases h
  split at h
  · cases h
  simp only at h
  generalize t.descend (if bs.head? == .some slash then [] else t.here) (names bs).dropLast = down at h ⊢
  cases down with
  | error f => cases h
  | ok reached =>
    simp only [Except.bind] at h
    split at h
    · cases h
    rename_i n hlast
    split at h
    · cases h
    rename_i hdot
    split at h
    · cases h
    rename_i hdots
    split at h
    · cases h
    cases h
    exact ⟨rfl, hlast, by simpa using hdot, by simpa using hdots⟩

/-- The path of an entry leads to its name in its directory. -/
theorem locate_stands {n : Bytes} (h : t.Stands way) (hn : IsName n)
    (hlength : ((way ++ [n]).flatMap (slash :: ·)).length ≤ maxPath) :
    ∃ slashed, t.locate ((way ++ [n]).flatMap (slash :: ·)) = .ok (.named way n slashed) := by
  have hall : ∀ m ∈ way ++ [n], slash ∉ m ∧ m ≠ [] := by
    intro m hm
    rcases List.mem_append.1 hm with hm | hm
    · exact ⟨(h.names m hm).slash, (h.names m hm).ne_nil⟩
    · exact List.mem_singleton.1 hm ▸ ⟨hn.slash, hn.ne_nil⟩
  have hnames : names ((way ++ [n]).flatMap (slash :: ·)) = way ++ [n] := by
    have hparts := parts_flatMap hall []
    rw [parts_nil, List.nil_append, List.nil_append] at hparts
    exact (names_eq _).trans hparts
  have hhead : ∃ rest, (way ++ [n]).flatMap (slash :: ·) = slash :: rest := by
    cases way with
    | nil => exact ⟨_, rfl⟩
    | cons m ms => exact ⟨_, rfl⟩
  obtain ⟨rest, hrest⟩ := hhead
  have hdown : t.descend [] way = .ok way := descend_stands h
  have hmax : ¬ maxPath < ((way ++ [n]).flatMap (slash :: ·)).length := Nat.not_lt.2 hlength
  have hname : ¬ maxName < n.length := Nat.not_lt.2 hn.length
  refine ⟨((way ++ [n]).flatMap (slash :: ·)).getLast? == .some slash, ?_⟩
  unfold locate
  simp only [hmax, hnames, List.dropLast_concat, List.getLast?_concat, hn.dot, hn.dotDot, hname, if_false,
    Bool.false_eq_true]
  rw [hrest]
  simp only [List.isEmpty_cons, Bool.false_eq_true, if_false, List.head?_cons, BEq.rfl, if_true, hdown]
  rfl

theorem head_encoded {path : Text} (h : ∀ c ∈ path, HasBytes c) :
    (path.encoded.head? == .some slash) = (path.head? == .some 47) := by
  cases path with
  | nil => rfl
  | cons c cs =>
    obtain ⟨b, bs, hbytes⟩ := List.exists_cons_of_ne_nil (Text.charBytes_ne_nil c)
    rw [Text.encoded_cons, hbytes, Bool.eq_iff_iff]
    simp only [List.cons_append, List.head?_cons, beq_iff_eq, Option.some.injEq]
    constructor
    · rintro rfl
      exact Text.charBytes_low (h c List.mem_cons_self) (hbytes ▸ List.mem_cons_self) (by decide)
    · rintro rfl
      exact (List.cons.inj hbytes).1.symm

theorem nameText_decodeEscaped {n : Bytes} (hn : IsName n) : NameText (decodeEscaped n) := by
  obtain ⟨hbytes, hencoded⟩ := encoded_decodeEscaped n
  refine ⟨hbytes, ?_, ?_⟩
  · intro hslash
    refine hn.slash ?_
    rw [← hencoded]
    exact List.mem_flatMap.2 ⟨47, hslash, List.mem_singleton.2 rfl⟩
  · intro hnil
    exact hn.ne_nil (by rw [← hencoded, hnil]; rfl)

theorem absoluteNames_eq (h : t.Stands t.here) (path : Text) :
    t.absoluteNames path =
      normalNames.go ((if path.head? == .some 47 then [] else t.here.map decodeEscaped) ++ parts 47 path) [] := by
  unfold absoluteNames
  split
  · exact normalNames_eq path
  · have hnames : ∀ n ∈ t.here.map decodeEscaped, 47 ∉ n ∧ n ≠ [] := by
      intro n hn
      obtain ⟨m, hm, rfl⟩ := List.mem_map.1 hn
      exact ⟨(nameText_decodeEscaped (h.names m hm)).slash, (nameText_decodeEscaped (h.names m hm)).ne_nil⟩
    have hway : wayText t.here = [] ++ (t.here.map decodeEscaped).flatMap (47 :: ·) := by
      rw [List.nil_append, List.flatMap_map]
      rfl
    rw [normalNames_eq, parts_cut, hway, parts_flatMap hnames, parts_nil]
    rfl

/-- The names from the root to where a path leads are those of its directory and one more. -/
theorem absoluteNames_of_locate {name : Bytes} {slashed : Bool} (h : t.Stands t.here)
    (hpath : ∀ c ∈ path, HasBytes c) (hnul : 0 ∉ path.encoded)
    (hspot : t.locate path.encoded = .ok (.named way name slashed)) :
    t.Stands way ∧ ∃ dirs last, t.absoluteNames path = dirs ++ [last] ∧ (∀ n ∈ dirs, NameText n) ∧
      dirs.map encoded = way := by
  obtain ⟨hdown, hlast, hdot, hdotDot⟩ := descend_of_locate hspot
  rw [head_encoded hpath] at hdown
  rw [names_eq, Text.parts_encoded hpath] at hdown hlast
  have htexts : ∀ n ∈ parts 47 path, NameText n := by
    intro n hn
    obtain ⟨hslash, hne, hsub⟩ := mem_parts hn
    exact ⟨fun c hc => hpath c (hsub c hc), hslash, hne⟩
  have hbytes : ∀ n ∈ (parts 47 path).map encoded, slash ∉ n ∧ 0 ∉ n ∧ n ≠ [] := by
    rw [← Text.parts_encoded hpath]
    intro n hn
    obtain ⟨hslash, hne, hsub⟩ := mem_parts hn
    exact ⟨hslash, fun h => hnul (hsub 0 h), hne⟩
  -- The last of the names on the path is that of the entry.
  obtain ⟨init, last, hparts⟩ : ∃ init last, parts 47 path = init ++ [last] := by
    rcases List.eq_nil_or_concat (parts 47 path) with hnil | hconcat
    · rw [hnil] at hlast
      cases hlast
    · obtain ⟨init, last, hconcat⟩ := hconcat
      exact ⟨init, last, hconcat.trans (List.concat_eq_append)⟩
  rw [hparts] at htexts hbytes hdown hlast
  simp only [List.map_append, List.map_singleton, List.dropLast_concat, List.getLast?_concat] at hdown hlast hbytes
  cases hlast
  have hname := htexts last (by simp)
  have hinit : ∀ n ∈ init, NameText n := fun n hn => htexts n (List.mem_append_left _ hn)
  have hstands : t.Stands way := by
    split at hdown
    · exact (stands_nil t).descend (fun n hn => hbytes n (List.mem_append_left _ hn)) hdown
    · exact h.descend (fun n hn => hbytes n (List.mem_append_left _ hn)) hdown
  refine ⟨hstands, ?_⟩
  obtain ⟨start, hstart, hstarts, hfull⟩ : ∃ start : List Text,
      (if path.head? == .some 47 then [] else t.here.map decodeEscaped) = start ∧ (∀ n ∈ start, NameText n) ∧
        t.descend [] ((start ++ init).map encoded) = .ok way := by
    refine ⟨_, rfl, ?_⟩
    split at hdown
    · rename_i habsolute
      rw [if_pos habsolute]
      exact ⟨nofun, hdown⟩
    · rename_i hrelative
      rw [if_neg hrelative]
      refine ⟨?_, ?_⟩
      · intro n hn
        obtain ⟨m, hm, rfl⟩ := List.mem_map.1 hn
        exact nameText_decodeEscaped (h.names m hm)
      · have hback : (t.here.map decodeEscaped).map encoded = t.here := by
          rw [List.map_map]
          exact (List.map_congr_left fun n _ => (encoded_decodeEscaped n).2).trans (List.map_id' _)
        have hhere : t.descend [] t.here = .ok t.here := descend_stands h
        rw [List.map_append, hback, descend_append, hhere]
        exact hdown
  have hnames : ∀ n ∈ start ++ init, NameText n := fun n hn => (List.mem_append.1 hn).elim (hstarts n) (hinit n)
  have hnone : ∀ n ∈ ([] : List Text), NameText n := nofun
  obtain ⟨done, hgo, hdone, hway⟩ := go_of_descend [last] hnames hnone hfull
  refine ⟨done.reverse, last, ?_, fun n hn => hdone n (List.mem_reverse.1 hn), hway⟩
  rw [absoluteNames_eq h, hstart, hparts, ← List.append_assoc, hgo]
  simp only [normalNames.go, hname.head, hname.isDot, hname.isDotDot, hdot, hdotDot, Bool.or_self,
    Bool.false_eq_true, if_false, List.reverse_cons]

end Tree

/-! ## Where a log is written -/

namespace Writer

open RequestLog.Tree

variable {t : Tree} {path : Text} {way : Way} {bs name token : Bytes} {slashed : Bool}

theorem pathBytes_eq_ok (hchars : ∀ c ∈ path, c ≤ 0x10FFFF) (h : pathBytes path = .ok bs) :
    (∀ c ∈ path, Text.HasBytes c) ∧ bs = path.encoded ∧ 0 ∉ bs := by
  unfold pathBytes at h
  split at h
  · cases h
  rename_i hbytes
  split at h
  · cases h
  rename_i hnul
  cases h
  obtain ⟨hescaped, rfl⟩ := Text.toBytes_eq_ok_iff.1 hbytes
  exact ⟨fun c hc => ⟨hchars c hc, hescaped c hc⟩, rfl, by simpa using hnul⟩

/-- The bytes of a path that is made of names. -/
theorem pathBytes_flatMap {ns : List Text} (h : ∀ n ∈ ns, NameText n) (hnul : ∀ n ∈ ns, 0 ∉ n.encoded) :
    pathBytes (ns.flatMap (47 :: ·)) = .ok ((ns.map Text.encoded).flatMap (slash :: ·)) := by
  have hslash : Text.HasBytes 47 := .of_character (by decide) (by decide)
  have hchars : ∀ c ∈ ns.flatMap (47 :: ·), Text.HasBytes c := by
    intro c hc
    obtain ⟨n, hn, hc⟩ := List.mem_flatMap.1 hc
    rcases List.mem_cons.1 hc with rfl | hc
    · exact hslash
    · exact (h n hn).hasBytes c hc
  have hencoded : Text.encoded (ns.flatMap (47 :: ·)) = (ns.map Text.encoded).flatMap (slash :: ·) := by
    rw [Text.encoded, List.flatMap_assoc, List.flatMap_map]
    rfl
  have hzero : ((ns.map Text.encoded).flatMap (slash :: ·)).contains 0 = false := by
    rw [List.contains_eq_mem, decide_eq_false_iff_not, List.mem_flatMap]
    rintro ⟨bs, hbs, hmem⟩
    obtain ⟨n, hn, rfl⟩ := List.mem_map.1 hbs
    rcases List.mem_cons.1 hmem with hzero | hmem
    · cases hzero
    · exact hnul n hn hmem
  rw [pathBytes, Text.toBytes_of_hasBytes hchars, hencoded]
  simp only [hzero, Bool.false_eq_true, if_false]

/-- **The temporary file for a log is beside it.** -/
theorem directoryFor_eq (hhere : t.Stands t.here) (hchars : ∀ c ∈ path, c ≤ 0x10FFFF)
    (hbs : pathBytes path = .ok bs) (hspot : t.locate bs = .ok (.named way name slashed))
    (hstem : IsName (stem token)) (hlength : ((way ++ [stem token]).flatMap (slash :: ·)).length ≤ maxPath) :
    directoryFor t path token = .ok way := by
  obtain ⟨hpath, rfl, hnul⟩ := pathBytes_eq_ok hchars hbs
  obtain ⟨hway, dirs, last, hnames, hdirs, hencoded⟩ := absoluteNames_of_locate hhere hpath hnul hspot
  have htemporary : temporaryPath t path token = (dirs ++ [Utf8.decodeEscaped (stem token)]).flatMap (47 :: ·) := by
    rw [temporaryPath, hnames, List.dropLast_concat, List.flatMap_append, List.flatMap_singleton]
  have hbytes : (dirs ++ [Utf8.decodeEscaped (stem token)]).map Text.encoded = way ++ [stem token] := by
    rw [List.map_append, hencoded, List.map_singleton, (Utf8.encoded_decodeEscaped _).2]
  have htexts : ∀ n ∈ dirs ++ [Utf8.decodeEscaped (stem token)], NameText n := by
    intro n hn
    rcases List.mem_append.1 hn with hn | hn
    · exact hdirs n hn
    · exact List.mem_singleton.1 hn ▸ nameText_decodeEscaped hstem
  have hzero : ∀ n ∈ dirs ++ [Utf8.decodeEscaped (stem token)], 0 ∉ n.encoded := by
    intro n hn
    have hmem : n.encoded ∈ way ++ [stem token] := hbytes ▸ List.mem_map_of_mem hn
    rcases List.mem_append.1 hmem with hmem | hmem
    · exact (hway.names _ hmem).nul
    · exact List.mem_singleton.1 hmem ▸ hstem.nul
  obtain ⟨slashed', hlocate⟩ := locate_stands hway hstem hlength
  simp only [directoryFor, htemporary, pathBytes_flatMap htexts hzero, hbytes, hlocate]

/-- A path that leads to a name in a directory, and that is not the name of a directory. -/
def Placeable (t : Tree) (path : Text) : Prop :=
  ∃ bs way name, pathBytes path = .ok bs ∧ t.locate bs = .ok (.named way name false) ∧
    t.get? (way ++ [name]) ≠ .some .directory

/-- A tree in which there is room for a temporary file beside what a path leads to: the working
directory is there, the path is a text, and neither the name nor the path of the file is too long. -/
structure Roomy (t : Tree) (path : Text) (token : Bytes) : Prop where
  here : t.Stands t.here
  chars : ∀ c ∈ path, c ≤ 0x10FFFF
  stem : IsName (stem token)
  length : ∀ bs way name, pathBytes path = .ok bs → t.locate bs = .ok (.named way name false) →
    ((way ++ [Writer.stem token]).flatMap (slash :: ·)).length ≤ maxPath

/-- **A log can be written where its directory is there,** unless there is a directory in its place. -/
theorem writable_iff_placeable (h : Roomy t path token) : Writable t path token ↔ Placeable t path := by
  refine ⟨fun hw => hw.spot, ?_⟩
  rintro ⟨bs, way, name, hbs, hspot, hplace⟩
  have hlength := h.length bs way name hbs hspot
  exact ⟨⟨bs, way, name, hbs, hspot, hplace⟩, way, directoryFor_eq h.here h.chars hbs hspot h.stem hlength⟩

end Writer

end RequestLog
