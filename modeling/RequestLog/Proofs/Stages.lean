/-
What each operation on a generator leaves of it. The generator only ever moves
onward (`Onward`): its stage does, a request for shutdown stays, and so do its
settings once it has a log or is stopped. And it stays sound (`Sound`), so
that its cursor never leaves the places between the records of the log that
it has opened.
-/
import RequestLog.Proofs.Cycle

namespace RequestLog

theorem Scan.seek_atBoundary (log : Bytes) (e : Bool) (cursor : Nat) (w : Bool) :
    AtBoundary log (seek log e cursor w).cursor := by
  fun_induction seek log e cursor w with
  | case1 => exact nextRecord_atBoundary ..
  | case2 _ _ _ _ _ _ _ ih => exact ih
  | case3 => exact nextRecord_atBoundary ..

theorem LogFile.openAt_closed {t : Tree} {path : Text} {log : LogFile} (h : openAt t path = .ok log) :
    log.closed = false := by
  unfold openAt at h
  split at h <;> try cases h
  split at h <;> cases h
  rfl

namespace Generator

open Scan

/-- A stage that may follow another: itself, or ready with a log after uninitialized, or stopped. A log
that was open until then is closed. -/
inductive Stage.Onward : Stage → Stage → Prop
  | same (s : Stage) : Onward s s
  | opened (log : LogFile) : Onward .uninitialized (.ready log)
  | closed (log : LogFile) : Onward (.ready log) (.stopped (.some { log with closed := true }))
  | unused : Onward .uninitialized (.stopped .none)
  | used (log : LogFile) : Onward .uninitialized (.stopped (.some { log with closed := true }))

theorem Stage.Onward.trans {a b c : Stage} (h : a.Onward b) (h' : b.Onward c) : a.Onward c := by
  cases h with
  | same => exact h'
  | opened log =>
    cases h' with
    | same => exact .opened log
    | closed => exact .used log
  | closed log => cases h'; exact .closed log
  | unused => cases h'; exact .unused
  | used log => cases h'; exact .used log

theorem Stage.onward_left (s : Stage) : s.Onward s.left := by
  cases s with
  | uninitialized => exact .unused
  | ready log => exact .closed log
  | stopped last => exact .same _

theorem Stage.Onward.eq_uninitialized {a : Stage} (h : a.Onward .uninitialized) : a = .uninitialized := by
  cases h; rfl

/-- What may become of a generator: its stage goes onward, a request for shutdown stays, and once it
has a log or is stopped its settings stay too. -/
structure Onward (g g' : Generator) : Prop where
  stage : g.stage.Onward g'.stage
  shutdown : g.shutdown = true → g'.shutdown = true
  settings : g.stage ≠ .uninitialized → g'.path = g.path ∧ g'.loop = g.loop ∧ g'.embedded = g.embedded

theorem Onward.refl (g : Generator) : g.Onward g := ⟨.same _, id, fun _ => ⟨rfl, rfl, rfl⟩⟩

theorem Onward.trans {g g' g'' : Generator} (h : g.Onward g') (h' : g'.Onward g'') : g.Onward g'' := by
  refine ⟨h.stage.trans h'.stage, fun hs => h'.shutdown (h.shutdown hs), ?_⟩
  intro hg
  have hg' : g'.stage ≠ .uninitialized := fun heq => hg (heq ▸ h.stage).eq_uninitialized
  obtain ⟨hpath, hloop, hembedded⟩ := h.settings hg
  obtain ⟨hpath', hloop', hembedded'⟩ := h'.settings hg'
  exact ⟨hpath'.trans hpath, hloop'.trans hloop, hembedded'.trans hembedded⟩

/-- What always holds of a generator, and of the log that it has opened so far. If it is stopped, it has
closed that log. -/
structure Sound (g : Generator) (opened : Option LogFile) : Prop where
  holds_log : (∃ log, g.stage = .ready log ∧ log.closed = false) ↔ g.stage.name = "ready"
  ready : ∀ log, g.stage = .ready log → opened = .some log
  stopped : ∀ last, g.stage = .stopped last → last = opened.map fun log => { log with closed := true }
  unopened : opened = .none → g.cursor = 0
  boundary : ∀ log, opened = .some log → AtBoundary log.content g.cursor
  uninitialized : g.stage = .uninitialized → g.cursor = 0 ∧ g.shutdown = false ∧ opened = .none
  shutdown : g.shutdown = true → g.loop = false

theorem Stage.name_ready_iff {s : Stage} : s.name = "ready" ↔ ∃ log, s = .ready log := by
  cases s with
  | uninitialized => exact iff_of_false (by decide) nofun
  | ready log => exact iff_of_true rfl ⟨log, rfl⟩
  | stopped last =>
    have hname : (stopped last).name = "stopped" := rfl
    exact iff_of_false (by rw [hname]; decide) nofun

variable {g : Generator} {opened : Option LogFile}

theorem produce_ready {log : LogFile} (hs : g.stage = .ready log) :
    ∃ w, g.produce.generator =
      { g with cursor := (seek log.content g.embedded g.cursor false).cursor
               shutdown := g.shutdown || (0 < w && !g.loop) } := by
  rcases hseek : seek log.content g.embedded g.cursor false with ⟨c, w, n, _ | r⟩
  · exact ⟨w, (produce_lost hs hseek).1⟩
  · exact ⟨w, (produce_found hs hseek).1⟩

/-- A request leaves the cursor between records, also where it fails. -/
theorem Sound.produce (h : g.Sound opened) : g.produce.generator.Sound opened ∧ g.Onward g.produce.generator := by
  by_cases hready : ∃ log, g.stage = .ready log
  · obtain ⟨log, hs⟩ := hready
    obtain ⟨w, hg⟩ := produce_ready hs
    have hopened := h.ready log hs
    rw [hg]
    refine ⟨⟨h.holds_log, h.ready, h.stopped, ?_, ?_, ?_, ?_⟩, .same _, ?_, fun _ => ⟨rfl, rfl, rfl⟩⟩
    · intro hnone
      rw [hopened] at hnone; cases hnone
    · intro log' hlog'
      cases hopened.symm.trans hlog'
      exact seek_atBoundary ..
    · intro hs'
      cases hs.symm.trans hs'
    · -- a search that wraps asks for a shutdown only where the generator does not loop
      intro hshutdown
      rcases Bool.or_eq_true_iff.1 hshutdown with hs' | hs'
      · exact h.shutdown hs'
      · simpa using (Bool.and_eq_true_iff.1 hs').2
    · intro hshutdown
      simp [hshutdown]
  · rw [produce_refused (not_exists.1 hready)]
    exact ⟨h, .refl g⟩

/-- The log that a request to open one opens. -/
def opening (g : Generator) (t : Tree) (c : Change) : Option LogFile :=
  match g.stage, openPath t (g.apply c).path with
  | .uninitialized, .ok log => .some log
  | _, _ => .none

theorem openPath_closed {t : Tree} {path : Option Text} {log : LogFile} (h : openPath t path = .ok log) :
    log.closed = false := by
  unfold openPath at h
  split at h
  · cases h
  · split at h
    · cases h
    · exact LogFile.openAt_closed h

/-- A generator is opened once: what it had opened before stays. -/
theorem Sound.openLog (h : g.Sound opened) (t : Tree) (c : Change) :
    (g.openLog t c).1.Sound (opened.or (g.opening t c)) ∧ g.Onward (g.openLog t c).1 := by
  by_cases hs : g.stage = .uninitialized
  · obtain ⟨hcursor, hshutdown, hopened⟩ := h.uninitialized hs
    subst hopened
    rcases hpath : openPath t (g.apply c).path with f | log
    · simp only [Generator.openLog, opening, hs, hpath, Option.none_or]
      refine ⟨⟨h.holds_log, h.ready, h.stopped, h.unopened, h.boundary, h.uninitialized, ?_⟩, .same _, id,
        fun hne => absurd hs hne⟩
      intro hon
      cases hshutdown.symm.trans hon
    · simp only [Generator.openLog, opening, hs, hpath, Option.none_or]
      have hclosed := openPath_closed hpath
      refine ⟨⟨iff_of_true ⟨log, rfl, hclosed⟩ rfl, ?_, nofun, nofun, ?_, nofun, ?_⟩, hs ▸ .opened log, id,
        fun hne => absurd hs hne⟩
      · intro log' hlog
        cases hlog; rfl
      · intro log' hlog
        exact atBoundary_zero _
      · intro hon
        cases hshutdown.symm.trans hon
  · have hrefused : (g.openLog t c).1 = g := by
      unfold Generator.openLog
      split
      · exact absurd ‹_› hs
      · rfl
    have hnone : g.opening t c = .none := by
      unfold opening
      split
      · exact absurd ‹_› hs
      · rfl
    rw [hrefused, hnone, Option.or_none]
    exact ⟨h, .refl g⟩

/-- Letting go of a log ends in a stage that is stopped, with the log that has been opened closed. -/
theorem Sound.left_eq (h : g.Sound opened) :
    g.stage.left = .stopped (opened.map fun log => { log with closed := true }) := by
  cases hs : g.stage with
  | uninitialized => rw [(h.uninitialized hs).2.2]; rfl
  | ready log => rw [h.ready log hs]; rfl
  | stopped last => rw [h.stopped last hs]; rfl

theorem Sound.finalize (h : g.Sound opened) : g.finalize.Sound opened ∧ g.Onward g.finalize := by
  have hleft : g.finalize.stage = .stopped (opened.map fun log => { log with closed := true }) := h.left_eq
  refine ⟨⟨?_, ?_, ?_, h.unopened, h.boundary, ?_, h.shutdown⟩, g.stage.onward_left, id, fun _ => ⟨rfl, rfl, rfl⟩⟩
  · rw [hleft]
    exact iff_of_false nofun (mt Stage.name_ready_iff.1 nofun)
  · rw [hleft]
    exact nofun
  · intro last hlast
    exact (Stage.stopped.inj (hleft.symm.trans hlast)).symm
  · rw [hleft]
    exact nofun

theorem Sound.listen (h : g.Sound opened) (l : Listener) :
    { g with listener := l }.Sound opened ∧ g.Onward { g with listener := l } :=
  ⟨⟨h.holds_log, h.ready, h.stopped, h.unopened, h.boundary, h.uninitialized, h.shutdown⟩,
    .same _, id, fun _ => ⟨rfl, rfl, rfl⟩⟩

end Generator

end RequestLog
