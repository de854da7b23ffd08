/-
Verbosity makes no difference but to what is told. A louder invocation comes
to the same and tells of no less (`perform_louder`), and a quiet one tells of
nothing but its failure (`perform_quiet`). Where a verbosity is asked for, by
a flag or by a configuration, does not matter. Levels make as little
difference to a session (`verbosity_only_tells`).
-/
import RequestLog.Proofs.Levels
import RequestLog.Proofs.ReplayCommand

namespace RequestLog

/-! ## Dry runs -/

namespace DryRun

open Session

theorem engine_louder {s : Config.Settings} {m : Nat} (hle : s.verbose ≤ m) (t : Tree) (level level' : Level)
    (headers : List Bytes) :
    engine t level' { s with verbose := m } headers = (engine t level s headers).tuned (0 < m) level' := by
  have hgenerator : generator { s with verbose := m } = (generator s).tuned (0 < m) := by
    have hverbose : decide (0 < m) = (decide (0 < s.verbose) || decide (0 < m)) := by
      rw [← Bool.decide_or]
      exact decide_eq_decide.2 (by omega)
    simp only [generator, Generator.tuned, ← hverbose]
  simp only [engine, hgenerator]
  rfl

/-- A dry run with a higher verbosity and on a lower level comes to the same, and only has more to tell. -/
theorem run_louder {s : Config.Settings} {m : Nat} {level level' : Level} (hl : level'.rank ≤ level.rank)
    (hle : s.verbose ≤ m) (t : Tree) (headers : List Bytes) :
    Option.Rel (Reply.Louder (0 < m) True) (run t level s headers) (run t level' { s with verbose := m } headers) := by
  rw [run_eq, run_eq, engine_louder hle t level]
  exact Session.run_louder (engine t level s headers) (fun _ => hl) 0 _ _

end DryRun

/-! ## Notices -/

theorem Level.rank_le_error (l : Level) : l.rank ≤ Level.error.rank := by cases l <;> decide

theorem Level.debug_rank_le (l : Level) : Level.debug.rank ≤ l.rank := by cases l <;> decide

/-- Less is told of fewer signals. -/
theorem Signal.notices_sublist {ps qs : List Signal} (h : ps.Sublist qs) : (notices ps).Sublist (notices qs) :=
  h.filterMap _

theorem Signal.mem_of_mem_notices {ps : List Signal} {n : Notice} (h : n ∈ notices ps) : .notice n ∈ ps := by
  obtain ⟨signal, hmem, hnotice⟩ := List.mem_filterMap.1 h
  cases signal <;> cases hnotice
  exact hmem

theorem Config.Settings.extraHeaders_minor (ts : List Text) : ∀ n ∈ (extraHeaders ts).notices, n.level ≠ .error := by
  induction ts with
  | nil => nofun
  | cons t ts ih =>
    unfold extraHeaders
    split
    · nofun
    · rename_i h hdatum
      intro n hn
      rcases List.mem_append.1 hn with hn | hn
      · simp only [Escape.unescapeDatum] at hdatum
        obtain ⟨raw, _, rfl⟩ := map_eq_ok_iff.1 hdatum
        exact Escape.unescape_minor n hn
      · exact ih n hn

theorem AccessLog.Finding.noticesBefore_minor (number : Nat) (fs : List Finding) :
    ∀ n ∈ noticesBefore number fs, n.level ≠ .error := by
  fun_induction noticesBefore number fs with
  | case1 => nofun
  | case2 => nofun
  | case3 number target fs ih => exact ih
  | case4 number line fs ih =>
    intro n hn
    rcases List.mem_cons.1 hn with rfl | hn
    · nofun
    · exact ih n hn

namespace CommandLine

open Config (Override Settings)

/-! ## Outcomes -/

namespace Outcome

variable {o o' : Outcome}

/-- An outcome that is the same but tells of more, on its level and before it. -/
structure Louder (o o' : Outcome) : Prop where
  tree : o'.tree = o.tree
  result : o'.result = o.result
  level : o'.level.rank ≤ o.level.rank
  notices : o.notices.Sublist o'.notices
  minor : ∀ n ∈ o'.notices, n.level ≠ .error

/-- What can be seen of two outcomes that only differ in what they tell of: the second leaves out nothing
that the first tells. -/
structure Below (o o' : Outcome) : Prop where
  exitCode : o'.exitCode? = o.exitCode?
  result : o'.result = o.result
  printed : o'.printed = o.printed
  tree : o'.tree = o.tree
  reported : o.reported.Sublist o'.reported

theorem Louder.below (h : o.Louder o') : o.Below o' := by
  refine ⟨by rw [exitCode?, exitCode?, h.result], h.result, by rw [printed, printed, h.result], h.tree, ?_⟩
  have hclosing : o'.closing = o.closing := by rw [closing, closing, h.result]
  rw [reported, reported, hclosing]
  exact (Notice.shown_sublist h.level h.notices).append (List.Sublist.refl _)

theorem exitCodeOf_ne_zero {f : Failure} {code : Int} (h : exitCodeOf f = .some code) : code ≠ 0 := by
  unfold exitCodeOf at h
  split at h
  · rename_i x hfatal
    cases h
    obtain ⟨kind, _, rfl⟩ := Option.map_eq_some_iff.1 hfatal
    have hkind : kind.exitCode ≠ 0 := by cases kind <;> decide
    exact hkind
  · split at h
    · cases h
      decide
    · cases h

/-- Where only errors are shown, the line that tells of a failure is all that there is. -/
theorem reported_quiet (hlevel : o.level = .error) (hminor : ∀ n ∈ o.notices, n.level ≠ .error) :
    o.reported = o.closing := by
  rw [reported, hlevel, Notice.shown_error hminor, List.nil_append]

/-- That line is there unless the exit code is zero. -/
theorem closing_of_exitCode {code : Int} (h : o.exitCode? = .some code) :
    code = 0 ∧ o.closing = [] ∨ code ≠ 0 ∧ ∃ f, o.result = .error f ∧ o.closing = ["wlog: " ++ f.message] := by
  cases hresult : o.result with
  | ok ls =>
    rw [exitCode?, hresult] at h
    cases h
    exact .inl ⟨rfl, by rw [closing, hresult]⟩
  | error f =>
    rw [exitCode?, hresult] at h
    refine .inr ⟨exitCodeOf_ne_zero h, f, rfl, ?_⟩
    simp only [closing, hresult, h, Option.isSome_some, if_true]

end Outcome

/-! ## Commands -/

section Perform

variable {t : Tree} {environment : Option Text} {token : Bytes} {v w : Invocation} {level level' : Level} {n : Nat}

theorem replaySettings_louder {s : Settings} {m : Nat} (hl : level'.rank ≤ level.rank) (hle : s.verbose ≤ m) :
    (replaySettings t level s).Louder (replaySettings t level' { s with verbose := m }) := by
  have hextra := Settings.extraHeaders_minor s.addHeader
  unfold replaySettings
  cases hvalue : (Settings.extraHeaders s.addHeader).value with
  | error f =>
    simp only [hvalue]
    exact ⟨rfl, rfl, hl, List.Sublist.refl _, hextra⟩
  | ok headers =>
    have hrun := DryRun.run_louder hl hle t headers
    simp only [hvalue]
    generalize DryRun.run t level s headers = r at hrun ⊢
    generalize DryRun.run t level' { s with verbose := m } headers = r' at hrun ⊢
    cases hrun with
    | none => exact ⟨rfl, rfl, hl, List.Sublist.refl _, hextra⟩
    | @some r r' h =>
      have hnotices := (List.Sublist.refl (Settings.extraHeaders s.addHeader).notices).append
        (Signal.notices_sublist (h.signals trivial))
      have hminor : ∀ n ∈ (Settings.extraHeaders s.addHeader).notices ++ Signal.notices r'.signals,
          n.level ≠ .error := by
        intro n hn
        rcases List.mem_append.1 hn with hn | hn
        · exact hextra n hn
        · exact h.minor n (Signal.mem_of_mem_notices hn)
      simp only [h.result]
      cases r.result with
      | error f => exact ⟨rfl, rfl, hl, hnotices, hminor⟩
      | ok calls =>
        refine ⟨rfl, rfl, hl, hnotices.append (List.Sublist.refl _), ?_⟩
        intro n hn
        rcases List.mem_append.1 hn with hn | hn
        · exact hminor n hn
        · obtain rfl := List.mem_singleton.1 hn
          nofun

theorem build_level (t : Tree) (token : Bytes) (level : Level) (b : Build) : (build t token level b).level = level := by
  unfold build
  cases endsOf t b <;> rfl

theorem inspect_level (t : Tree) (level : Level) (i : Inspection) : (inspect t level i).level = level := by
  unfold inspect
  cases LogFile.openAt t i.file <;> rfl

theorem build_louder (hl : level'.rank ≤ level.rank) (b : Build) :
    (build t token level b).Louder (build t token level' b) := by
  unfold build
  cases endsOf t b with
  | error f => exact ⟨rfl, rfl, hl, List.Sublist.refl _, nofun⟩
  | ok ends =>
    refine ⟨rfl, rfl, hl, List.Sublist.refl _, ?_⟩
    simp only [writeFindings]
    split
    · nofun
    · nofun
    · exact AccessLog.Finding.noticesBefore_minor _ _

theorem inspect_louder (hl : level'.rank ≤ level.rank) (i : Inspection) :
    (inspect t level i).Louder (inspect t level' i) := by
  unfold inspect
  cases LogFile.openAt t i.file with
  | error f => exact ⟨rfl, rfl, hl, List.Sublist.refl _, nofun⟩
  | ok log => exact ⟨rfl, rfl, hl, List.Sublist.refl _, nofun⟩

/-- A higher verbosity on the command line makes that of the settings no lower, and no other
difference. -/
theorem resolve_louder [Config.Reader] (o : Override) (n : Nat) (t : Tree) (environment : Option Text) :
    Override.resolve { o with verbose := o.verbose + n } t environment =
      (o.resolve t environment).map fun s => { s with verbose := max s.verbose (o.verbose + n) } := by
  rw [Override.resolve_verbose, Override.resolve_verbose o]
  cases Override.resolve { o with verbose := 0 } t environment with
  | error f => rfl
  | ok s =>
    have hmax : max (max s.verbose o.verbose) (o.verbose + n) = max s.verbose (o.verbose + n) := by omega
    simp only [Except.map, hmax]

theorem Command.louder_zero (c : Command) : c.louder 0 = c := by cases c <;> rfl

theorem Command.louder_louder (c : Command) (m n : Nat) : (c.louder m).louder n = c.louder (m + n) := by
  cases c with
  | replay o => simp only [Command.louder, Nat.add_assoc]
  | build b => rfl
  | inspect i => rfl

namespace Invocation

/-- An invocation of the same with a higher verbosity, and quiet only if the other is. -/
structure Louder (n : Nat) (v w : Invocation) : Prop where
  verbose : w.verbose = v.verbose + n
  quiet : w.quiet = true → v.quiet = true
  command : w.command = v.command.louder n

theorem hushed_louder (v : Invocation) : Louder 0 v.hushed v :=
  ⟨rfl, fun _ => rfl, (Command.louder_zero v.command).symm⟩

theorem louder_louder (n : Nat) (v : Invocation) : Louder n v (v.louder n) := ⟨rfl, id, rfl⟩

theorem louder_add (m n : Nat) (v : Invocation) : Louder n (v.louder m) (v.louder (m + n)) :=
  ⟨(Nat.add_assoc v.verbose m n).symm, id, (Command.louder_louder v.command m n).symm⟩

theorem Louder.loud (h : v.Louder n w) (hv : v.quiet = false) : w.quiet = false :=
  Bool.eq_false_iff.2 fun hw => Bool.noConfusion (hv.symm.trans (h.quiet hw))

theorem level_quiet (h : v.quiet = true) : v.level = .error := by rw [Invocation.level, h, if_pos rfl]

theorem Louder.level_rank (h : v.Louder n w) : w.level.rank ≤ v.level.rank := by
  have hverbose := h.verbose
  cases hv : v.quiet with
  | true =>
    rw [level_quiet hv]
    exact Level.rank_le_error _
  | false =>
    simp only [Invocation.level, hv, h.loud hv, Bool.false_eq_true, if_false]
    by_cases hdebug : 2 ≤ v.verbose
    · have hdebug' : 2 ≤ w.verbose := by omega
      exact Nat.le_of_eq (by rw [if_pos hdebug, if_pos hdebug'])
    · rw [if_neg hdebug]
      split <;> decide

theorem replay_louder [Config.Reader] (h : v.Louder n w) (o : Override) :
    (replay t environment v o).Louder (replay t environment w { o with verbose := o.verbose + n }) := by
  unfold replay
  rw [resolve_louder]
  cases o.resolve t environment with
  | error f => exact ⟨rfl, rfl, h.level_rank, List.Sublist.refl _, nofun⟩
  | ok s =>
    simp only [Except.map]
    cases s.loop && s.numCalls.isNone with
    | true => exact ⟨rfl, rfl, h.level_rank, List.Sublist.refl _, nofun⟩
    | false =>
      refine replaySettings_louder ?_ (Nat.le_max_left _ _)
      cases hv : v.quiet with
      | true =>
        rw [Bool.not_true, Bool.and_false, level_quiet hv]
        exact Level.rank_le_error _
      | false =>
        have hw := h.loud hv
        rw [hw]
        by_cases hdebug : 2 ≤ s.verbose
        · have hmax : 2 ≤ max s.verbose (o.verbose + n) := by omega
          simp [hdebug, hmax]
        · simp only [hdebug]
          split
          · exact Level.debug_rank_le _
          · exact h.level_rank

/-- **A louder invocation comes to the same.** -/
theorem perform_louder [Config.Reader] (h : v.Louder n w) (t : Tree) (environment : Option Text) (token : Bytes) :
    (v.perform t environment token).Louder (w.perform t environment token) := by
  unfold perform
  rw [h.command]
  cases v.command with
  | replay o => exact replay_louder h o
  | build b => exact build_louder h.level_rank b
  | inspect i => exact inspect_louder h.level_rank i

theorem replay_quiet [Config.Reader] (hv : v.quiet = true) (o : Override) :
    (replay t environment v o).level = .error := by
  have hlevel := level_quiet hv
  unfold replay
  split
  · exact hlevel
  · split
    · exact hlevel
    · simp only [hv, Bool.not_true, Bool.and_false, Bool.false_eq_true, if_false, (replaySettings_keeps ..).2, hlevel]

/-- **A quiet invocation tells of nothing but its failure.** -/
theorem perform_quiet [Config.Reader] (hv : v.quiet = true) (t : Tree) (environment : Option Text) (token : Bytes) :
    (v.perform t environment token).level = .error := by
  have hlevel := level_quiet hv
  unfold perform
  cases v.command with
  | replay o => exact replay_quiet hv o
  | build b => exact (build_level t token v.level b).trans hlevel
  | inspect i => exact (inspect_level t v.level i).trans hlevel

end Invocation

end Perform

/-! ## All commands and all sessions -/

open Invocation

/-- **Verbosity only tells.** Words that make a command do so with a flag for silence or for verbosity
ahead of them. The exit code or the failure passed on, the lines printed and the files afterwards are
the same; a quiet command leaves out some of what is told without a flag, and a louder one leaves out
nothing of what is told with less. A quiet command tells of nothing but its failure, if that has an
exit code. And whatever the levels on which a session takes its steps, the results of those are the
same, and so is the session but for its level. -/
theorem verbosity_only_tells [Config.Reader] (t : Tree) (environment : Option Text) (token : Bytes) :
    (∀ words plain, run t environment token words = .ok plain →
      ∃ (quiet : Outcome) (loud : Nat → Outcome),
        run t environment token (quietFlag :: words) = .ok quiet ∧
        (∀ n, run t environment token (verboseFlag n :: words) = .ok (loud n)) ∧
        quiet.Below plain ∧ (∀ n, plain.Below (loud n)) ∧ (∀ m n, m ≤ n → (loud m).Below (loud n)) ∧
        ∀ code, quiet.exitCode? = .some code →
          code = 0 ∧ quiet.reported = [] ∨
            code ≠ 0 ∧ ∃ f, quiet.result = .error f ∧ quiet.reported = ["wlog: " ++ f.message]) ∧
    ∀ fuel (s : Session) (plan plan' : List (Level × Session.Step)), plan.map Prod.snd = plan'.map Prod.snd →
      Option.Rel (fun after after' => (∃ l, after'.1 = { after.1 with level := l }) ∧ after'.2 = after.2)
        (Session.play fuel s plan) (Session.play fuel s plan') := by
  refine ⟨?_, fun fuel s plan plan' hsteps => Session.play_levels hsteps s s.level⟩
  intro words plain hrun
  obtain ⟨v, hwords, rfl⟩ := map_eq_ok_iff.1 hrun
  have hquiet := perform_louder (hushed_louder v) t environment token
  refine ⟨v.hushed.perform t environment token, fun n => (v.louder (n + 1)).perform t environment token, ?_, ?_, ?_, ?_,
    ?_, ?_⟩
  · rw [run, ofWords_quiet, hwords]
    rfl
  · intro n
    rw [run, ofWords_verbose, hwords]
    rfl
  · exact hquiet.below
  · exact fun n => (perform_louder (louder_louder (n + 1) v) t environment token).below
  · intro m n hle
    obtain ⟨k, rfl⟩ := Nat.exists_eq_add_of_le hle
    have hmore := louder_add (m + 1) k v
    rw [Nat.add_right_comm] at hmore
    exact (perform_louder hmore t environment token).below
  · intro code hcode
    have hminor : ∀ n ∈ (v.hushed.perform t environment token).notices, n.level ≠ .error :=
      fun n hn => hquiet.minor n (hquiet.notices.subset hn)
    rw [Outcome.reported_quiet (perform_quiet rfl t environment token) hminor]
    exact Outcome.closing_of_exitCode hcode

theorem verbosity_only_tells_twoRequests :
    (∃ quiet ls, run Session.twoRequests.tree .none [49] (quietFlag :: replayWords "log" true) = .ok quiet ∧
      quiet.Prints ls ∧ ls.length = 3 ∧ quiet.reported = []) ∧
    ∃ shown silent, Session.play 0 Session.twoRequests [(.debug, .start 0), (.debug, .newCall)] = .some shown ∧
      Session.play 0 Session.twoRequests [(.error, .start 0), (.error, .newCall)] = .some silent ∧
      silent.2 = shown.2 := by
  obtain ⟨hwords, hlevels⟩ := verbosity_only_tells Session.twoRequests.tree .none [49]
  refine ⟨?_, ?_⟩
  · have hfile : Session.twoRequests.tree.lookup "log" = .ok (.file [0, 97, 1, 47, 120, 0, 0, 47, 121]) := rfl
    obtain ⟨level, hrun⟩ := run_replayWords hfile [49] true
    obtain ⟨ls, hprints, hlines⟩ := once_lines level hfile
      (Session.requests_twoRequests ▸ List.cons_ne_nil _ _)
    obtain ⟨quiet, _, hquiet, _, hbelow, _, _, htold⟩ := hwords _ _ hrun
    have hcode : quiet.exitCode? = .some 0 := hbelow.exitCode.symm.trans hprints.exitCode
    refine ⟨quiet, ls, hquiet, ⟨hcode, hbelow.printed.symm.trans hprints.printed⟩, ?_, ?_⟩
    · rw [hlines.length, Session.requests_twoRequests]
      rfl
    · rcases htold 0 hcode with ⟨_, hreported⟩ | ⟨hne, _⟩
      · exact hreported
      · exact absurd rfl hne
  · have h := hlevels 0 Session.twoRequests [(.debug, .start 0), (.debug, .newCall)]
      [(.error, .start 0), (.error, .newCall)] rfl
    cases h with
    | some h => exact ⟨_, _, rfl, rfl, h.2⟩

end CommandLine

end RequestLog
