/-
What the build command comes to. The targets it selects from its input are
not empty, so that only a NUL in one of them keeps it from being written. A
build writes all of them or changes nothing, and a replay of what it wrote
goes through them in order (`build_then_replay`).
-/
import RequestLog.Proofs.Extraction
import RequestLog.Proofs.ReplayCommand
import RequestLog.Proofs.Temporary

namespace RequestLog

/-! ## Lines -/

namespace Bytes

/-- The first line of some bytes ends at the first line feed, or they are one line without one. -/
theorem cutLine_cases (bs : Bytes) :
    (10 ∉ bs ∧ cutLine bs = (bs, [])) ∨
      ∃ line rest, 10 ∉ line ∧ bs = line ++ 10 :: rest ∧ cutLine bs = (line ++ [10], rest) := by
  induction bs with
  | nil => exact .inl ⟨nofun, rfl⟩
  | cons b bs ih =>
    by_cases hb : b = 10
    · subst hb
      exact .inr ⟨[], bs, nofun, rfl, rfl⟩
    · have hcut : cutLine (b :: bs) = (b :: (cutLine bs).1, (cutLine bs).2) := by
        rw [cutLine, if_neg (by simpa using hb)]
      rcases ih with ⟨hbs, hrest⟩ | ⟨line, rest, hline, rfl, hrest⟩
      · exact .inl ⟨by simpa [Ne.symm hb] using hbs, by rw [hcut, hrest]⟩
      · exact .inr ⟨b :: line, rest, by simpa [Ne.symm hb] using hline, rfl, by rw [hcut, hrest]; rfl⟩

/-- White space at the end of a line is no part of what is in it. -/
theorem strip_concat {b : UInt8} (hb : isSpace b = true) (bs : Bytes) : strip (bs ++ [b]) = strip bs := by
  simp only [strip, List.dropWhile_append]
  split
  · rename_i hblank
    rw [List.isEmpty_iff.1 hblank, List.dropWhile_cons_of_pos hb]
    rfl
  · simp [hb]

end Bytes

/-! ## Targets that are selected -/

namespace UriList

/-- Whether a line without the white space around it is a target. -/
def isTarget (line : Bytes) : Bool := !line.isEmpty && line.head? != .some 35

theorem target?_eq (line : Bytes) : target? line = if isTarget line.strip then .some line.strip else .none := by
  unfold target?
  split
  · rename_i hstrip
    rw [hstrip]
    rfl
  · rename_i b bs hstrip
    rw [hstrip]
    by_cases hb : b = 35 <;> simp [isTarget, hb]

/-- A line feed at the end of a line makes no difference. -/
theorem target?_concat (line : Bytes) : target? (line ++ [10]) = target? line := by
  rw [target?_eq, target?_eq, Bytes.strip_concat rfl]

theorem targets_eq (lines : List Bytes) : targets lines = (lines.map Bytes.strip).filter isTarget := by
  induction lines with
  | nil => rfl
  | cons line lines ih =>
    rw [List.map_cons, List.filter_cons, ← ih, targets, List.filterMap_cons, target?_eq]
    cases isTarget line.strip <;> rfl

/-- The targets of a content are those on the lines between its line feeds. -/
theorem targets_lines (content : Bytes) :
    targets content.lines = ((content.splitOn 10).map Bytes.strip).filter isTarget := by
  rw [← targets_eq]
  fun_induction Bytes.lines content with
  | case1 => rfl
  | case2 b bs ih =>
    rcases Bytes.cutLine_cases (b :: bs) with ⟨hbs, hcut⟩ | ⟨line, rest, hline, heq, hcut⟩
    · rw [hcut, List.splitOn_eq_singleton hbs, Bytes.lines]
    · rw [hcut] at ih ⊢
      rw [heq, List.splitOn_append_cons_self, List.splitOn_eq_singleton hline]
      have hmore : targets (Bytes.lines rest) = targets (rest.splitOn 10) := ih
      simp only [targets, List.filterMap_append, List.filterMap_cons, target?_concat] at hmore ⊢
      rw [hmore]
      cases target? line <;> rfl

end UriList

namespace CommandLine

open Record

/-! ## What a build selects -/

/-- The targets that a build selects from a content: those on the lines of a list that are neither
blank nor comments, or those of the requests in an access log that have one of some methods. -/
def Build.Selects (b : Build) (content : Bytes) (us : List Bytes) : Prop :=
  match b.format with
  | .uriList => us = ((content.splitOn 10).map Bytes.strip).filter UriList.isTarget
  | .accessLog => ∃ methods : List Text, b.methods = methods.map .some ∧
      (AccessLog.targetsOf (methods.map .text) (content.lines.map .bytes)).value = .ok us

variable {t : Tree} {b : Build} {content token : Bytes} {us : List Bytes} {output : Text} {level : Level}

/-- What a build finds on the lines of its input are the targets that it selects, which are not
empty. -/
theorem Build.Selects.findings (h : b.Selects content us) :
    ∃ fs, findingsOf b (Bytes.lines content) = .ok fs ∧ fs.filterMap AccessLog.Finding.target? = us ∧
      ∀ u ∈ us, u ≠ [] := by
  unfold Build.Selects at h
  unfold findingsOf
  cases hformat : b.format with
  | uriList =>
    simp only [hformat] at h ⊢
    refine ⟨_, rfl, ?_, ?_⟩
    · rw [List.filterMap_map, UriList.targets_lines, h]
      exact List.filterMap_some
    · intro u hu
      rw [h] at hu
      have htarget := (List.mem_filter.1 hu).2
      intro hnil
      rw [hnil] at htarget
      cases htarget
  | accessLog =>
    simp only [hformat] at h ⊢
    obtain ⟨methods, hmethods, hvalue⟩ := h
    have hnames : b.methods.filterMap id = methods := by
      rw [hmethods, List.filterMap_map]
      exact List.filterMap_some
    rw [hnames]
    unfold AccessLog.targetsOf at hvalue
    cases hwanted : Datum.allBytes (methods.map .text) with
    | error f =>
      rw [hwanted] at hvalue
      cases hvalue
    | ok wanted =>
      rw [hwanted, Datum.bytesOf_bytes] at hvalue
      cases hvalue
      obtain ⟨targets, skipped, hextracts⟩ := AccessLog.exists_extracts (methods.map .text) 1 content.lines
      obtain ⟨htargets, _⟩ := hextracts.findingsFrom (Datum.allBytes_eq_ok hwanted)
      exact ⟨_, rfl, rfl, fun u hu => (hextracts.words u (htargets ▸ hu)).some⟩

theorem Build.Selects.endsOf (h : b.Selects content us) (hin : t.read b.input = .ok content)
    (hout : b.output = .some output) : endsOf t b = .ok (content, output) := by
  have hmethods : ¬ (b.format = .accessLog ∧ .none ∈ b.methods) := by
    rintro ⟨hformat, hnone⟩
    unfold Build.Selects at h
    rw [hformat] at h
    obtain ⟨methods, hmethods, _⟩ := h
    rw [hmethods] at hnone
    simp at hnone
  simp only [CommandLine.endsOf, hin, hout, hmethods, if_false]
  rfl

/-! ## What becomes of it -/

theorem writeFindings_ok (t : Tree) (output : Text) (token : Bytes) (fs : List AccessLog.Finding) :
    let written := Writer.write t output token
      (Writer.pairs ((fs.filterMap AccessLog.Finding.target?).map .bytes) .none)
    ∃ notices, writeFindings t output token (.ok fs) = (written.1, notices, written.2) := by
  unfold writeFindings
  split
  · rename_i hd
    simp only [Writer.write, hd]
    exact ⟨_, rfl⟩
  · rename_i heq
    cases heq
  · rename_i heq
    cases heq
    exact ⟨_, rfl⟩

/-- The line that tells how many records were written. -/
def wroteLine (n : Nat) (output : Text) : Text := "wrote " ++ Text.ofNat n ++ " records to " ++ output

/-- The records of targets without headers. -/
def plainRecords (us : List Bytes) : List Record := us.map fun u => ⟨u, .none⟩

/-- A build writes the targets that it selects. -/
theorem build_eq (token : Bytes) (level : Level) (h : b.Selects content us) (hin : t.read b.input = .ok content)
    (hout : b.output = .some output) :
    let written := Writer.write t output token (Writer.pairs (us.map .bytes) .none)
    (build t token level b).tree = written.1 ∧
      (build t token level b).result = match written.2 with
        | .error f => .error (unfit b.input f)
        | .ok n => .ok [wroteLine n output] := by
  obtain ⟨fs, hfs, rfl, _⟩ := h.findings
  obtain ⟨notices, hwrite⟩ := writeFindings_ok t output token fs
  simp only [build, h.endsOf hin hout, hfs, hwrite]
  exact ⟨trivial, rfl⟩

theorem exitCodeOf_unfit (input : Text) (f : Failure) : Outcome.exitCodeOf (unfit input f) = .some 1 := by
  cases f <;> rfl

/-! ## Logs of plain targets -/

/-- Targets one after the other, each with the byte that ends it. -/
def plainLog (us : List Bytes) : Bytes := us.flatMap (· ++ [terminator])

theorem plainLog_eq (us : List Bytes) : plainLog us = (plainRecords us).flatMap spelling := by
  rw [plainRecords, List.flatMap_map]
  rfl

theorem plainRecords_spellable (hne : ∀ u ∈ us, u ≠ []) (hnul : ∀ u ∈ us, terminator ∉ u) :
    ∀ r ∈ plainRecords us, r.Spellable := by
  intro r hr
  obtain ⟨u, hu, rfl⟩ := List.mem_map.1 hr
  exact ⟨hne u hu, hnul u hu, fun _ h => by cases h⟩

theorem compose_plain (hne : ∀ u ∈ us, u ≠ []) (hnul : ∀ u ∈ us, terminator ∉ u) :
    ((Writer.pairs (us.map .bytes) .none).map fun p => compose p.1 p.2) = (plainRecords us).map .ok := by
  simp only [Writer.pairs, plainRecords, List.map_map]
  refine List.map_congr_left ?_
  intro u hu
  have hspellable : Spellable ⟨u, .none⟩ := plainRecords_spellable hne hnul _ (List.mem_map_of_mem hu)
  have hcompose : compose (.bytes u) .none = .ok ⟨u, .none⟩ := compose_eq_ok_iff.2 ⟨rfl, rfl, hspellable⟩
  exact hcompose

/-- A log of plain targets has them for requests. -/
theorem requests_plainLog (hne : ∀ u ∈ us, u ≠ []) (hnul : ∀ u ∈ us, terminator ∉ u) :
    Scan.requests false (plainLog us) = plainRecords us := by
  have hsplit : ∀ r ∈ plainRecords us, split false r.body = r := by
    intro r hr
    obtain ⟨u, _, rfl⟩ := List.mem_map.1 hr
    rfl
  rw [plainLog_eq, Scan.requests_spellings (plainRecords_spellable hne hnul) hsplit, plainRecords, List.map_map]
  rfl

/-- Plain targets are written if and only if the path is writable and none of them holds a NUL. -/
theorem write_plain_iff (hne : ∀ u ∈ us, u ≠ []) :
    (∃ n, (Writer.write t output token (Writer.pairs (us.map .bytes) .none)).2 = .ok n) ↔
      (∀ u ∈ us, terminator ∉ u) ∧ Writer.Writable t output token := by
  constructor
  · rintro ⟨n, hn⟩
    obtain ⟨hw, hnone⟩ := Writer.writable_of_write (Prod.ext rfl hn)
    refine ⟨?_, hw⟩
    intro u hu
    have hpair : (Datum.bytes u, .none) ∈ Writer.pairs (us.map .bytes) .none := by simpa [Writer.pairs] using hu
    obtain ⟨bs, hbs, _, hnul⟩ := exists_compose_none_iff.1 (Writer.exists_encode_iff.1
      (Writer.encodeAll_eq_none_iff.1 hnone _ hpair))
    cases hbs
    exact hnul
  · rintro ⟨hnul, hw⟩
    obtain ⟨t', hwrite, _⟩ := Writer.write_replaces hw (Writer.encodeAll_composed (compose_plain hne hnul))
    exact ⟨_, congrArg Prod.snd hwrite⟩

/-- What a replay of a log of plain targets comes to. -/
theorem run_plainLog [Config.Reader] (hfile : t.lookup output = .ok (.file (plainLog us))) (hne : ∀ u ∈ us, u ≠ [])
    (hnul : ∀ u ∈ us, terminator ∉ u) (token : Bytes) :
    ∃ out, run t .none token (replayWords output false) = .ok out ∧
      (us = [] → out.FailsWith 4 (.emptyLog output)) ∧
      (us ≠ [] → ∃ ls, out.Prints ls ∧ ls.length = us.length + 1 ∧
        ∀ k < ls.length, ∃ u, us[k % us.length]? = .some u ∧
          ls[k]? = .some (Text.ofNat (k + 1) ++ 9 :: Bytes.visible u)) := by
  obtain ⟨level, hrun⟩ := run_replayWords hfile token false
  have hrequests := requests_plainLog hne hnul
  refine ⟨_, hrun, ?_, ?_⟩
  · intro hnil
    subst hnil
    exact once_empty hfile
  · intro hsome
    have hrequests_ne : Scan.requests false (plainLog us) ≠ [] := by
      rw [hrequests]
      simpa [plainRecords] using hsome
    obtain ⟨ls, hprints, hlines⟩ := once_lines level hfile hrequests_ne
    have hlength : (plainRecords us).length = us.length := List.length_map _
    rw [hrequests, hlength] at hlines
    refine ⟨ls, hprints, hlines.length, ?_⟩
    intro k hk
    obtain ⟨q, hq, hline⟩ := hlines.line k (hlines.length ▸ hk)
    rw [hlength, plainRecords, List.getElem?_map] at hq
    obtain ⟨u, hu, rfl⟩ := Option.map_eq_some_iff.1 hq
    refine ⟨u, hu, hline.trans ?_⟩
    simp [requestLine]

/-- **What is built is replayed.** Let `us` be the targets that a build selects from its input. If its
output is writable and no target holds a NUL, the build succeeds, its output holds the targets, each
with a NUL after it, and nothing else in the tree has changed. A replay of the output then makes a
call for each target in order and one again for the first, or fails because the output is empty. In
all other cases the build fails, and the tree is as it was. Where there is room for a temporary file,
an output is writable if its directory is there and it is not itself a directory. -/
theorem build_then_replay [Config.Reader] (environment : Option Text) (token : Bytes) {v : Invocation}
    (hv : v.command = .build b) (hin : t.read b.input = .ok content) (hout : b.output = .some output)
    (hselects : b.Selects content us) :
    let out := v.perform t environment token
    (Writer.Roomy t output token → (Writer.Writable t output token ↔ Writer.Placeable t output)) ∧
    ((∀ u ∈ us, terminator ∉ u) → Writer.Writable t output token →
      out.Prints [wroteLine us.length output] ∧ Writer.Replaced t out.tree output (plainLog us) ∧
      ∀ token', ∃ again, run out.tree .none token' (replayWords output false) = .ok again ∧
        (us = [] → again.FailsWith 4 (.emptyLog output)) ∧
        (us ≠ [] → ∃ ls, again.Prints ls ∧ ls.length = us.length + 1 ∧
          ∀ k < ls.length, ∃ u, us[k % us.length]? = .some u ∧
            ls[k]? = .some (Text.ofNat (k + 1) ++ 9 :: Bytes.visible u))) ∧
    (¬ ((∀ u ∈ us, terminator ∉ u) ∧ Writer.Writable t output token) →
      (∃ f, out.FailsWith 1 f) ∧ out.tree = t) := by
  obtain ⟨_, _, _, hne⟩ := hselects.findings
  have hperform : v.perform t environment token = build t token v.level b := by simp only [Invocation.perform, hv]
  obtain ⟨htree, hresult⟩ := build_eq token v.level hselects hin hout
  simp only [hperform]
  refine ⟨Writer.writable_iff_placeable, ?_, ?_⟩
  · intro hnul hw
    obtain ⟨t', hwrite, hreplaced⟩ := Writer.write_replaces hw (Writer.encodeAll_composed (compose_plain hne hnul))
    rw [hwrite] at htree hresult
    have htree : (build t token v.level b).tree = t' := htree
    rw [← plainLog_eq, ← htree] at hreplaced
    have hcount : (plainRecords us).length = us.length := List.length_map _
    rw [hcount] at hresult
    exact ⟨Outcome.prints_of_result hresult, hreplaced, run_plainLog hreplaced.found hne hnul⟩
  · intro hbad
    rw [← write_plain_iff hne, not_exists] at hbad
    cases hwrite : (Writer.write t output token (Writer.pairs (us.map .bytes) .none)).2 with
    | ok n => exact absurd hwrite (hbad n)
    | error f =>
      rw [hwrite] at hresult
      exact ⟨⟨_, Outcome.failsWith_of_result hresult (exitCodeOf_unfit b.input f)⟩,
        htree.trans (Writer.write_failed hwrite)⟩

/-- A tree with a list of two targets, a comment and a blank line. -/
def listedTree : Tree := ⟨[], [([[105, 110]], .file [47, 97, 10, 35, 99, 10, 10, 32, 47, 98, 13])]⟩

theorem roomy_listedTree : Writer.Roomy listedTree "in" [49] where
  here := Tree.stands_nil listedTree
  chars := by decide
  stem := ⟨by decide, by decide, by decide, rfl, rfl, by decide⟩
  length := by
    intro bs way name hbs hspot
    cases hbs
    cases hspot
    decide

/-- A list of targets is built into a log in its own place, which is then replayed. -/
theorem build_then_replay_in_place :
    let out := Invocation.perform listedTree .none [49] ⟨0, false, .build { input := "in", output := .some "in" }⟩
    out.Prints [Text.ofString "wrote 2 records to in"] ∧ out.tree.lookup "in" = .ok (.file [47, 97, 0, 47, 98, 0]) ∧
      ∃ again, run out.tree .none [50] (replayWords "in" false) = .ok again ∧
        ∃ ls, again.Prints ls ∧ ls.length = 3 ∧ ls[2]? = .some (Text.ofString "3\t/a") := by
  intro out
  have hselects : Build.Selects { input := "in", output := .some "in" } [47, 97, 10, 35, 99, 10, 10, 32, 47, 98, 13]
      [[47, 97], [47, 98]] := by
    unfold Build.Selects
    decide +kernel
  have hplaceable : Writer.Placeable listedTree "in" := ⟨[105, 110], [], [105, 110], rfl, rfl, by decide⟩
  have hnul : ∀ u ∈ [[47, 97], [47, 98]], terminator ∉ u := by decide
  obtain ⟨hwritable, hbuilt, _⟩ := build_then_replay .none [49]
    (v := ⟨0, false, .build { input := "in", output := .some "in" }⟩) (t := listedTree) rfl rfl rfl hselects
  obtain ⟨hprints, hreplaced, hreplay⟩ := hbuilt hnul ((hwritable roomy_listedTree).2 hplaceable)
  obtain ⟨again, hrun, _, hlines⟩ := hreplay [50]
  obtain ⟨ls, hls, hlength, hline⟩ := hlines (List.cons_ne_nil _ _)
  obtain ⟨u, hu, hthird⟩ := hline 2 (hlength ▸ Nat.lt_succ_self 2)
  cases hu
  exact ⟨hprints, hreplaced.found, again, hrun, ls, hls, hlength, hthird⟩

end CommandLine

end RequestLog
