/-
What a failed request to open a log leaves of a generator. The settings that
came with the request stay where no log had been opened before, and all else is
as it was; so the next request finds them, unless it comes with settings of its
own (`failed_opening`).
-/
import RequestLog.Proofs.Replay

namespace RequestLog.Generator

variable {g : Generator} {t : Tree} {c c' : Change} {f : Failure}

/-- What comes of a change after an earlier one: what it leaves out is as in the earlier one. -/
def Change.after (c' c : Change) : Change :=
  ⟨c'.path.or c.path, c'.loop.or c.loop, c'.embedded.or c.embedded⟩

theorem apply_eq (g : Generator) (c : Change) :
    g.apply c = { g with
      path := c.path.or g.path
      loop := c.loop.getD g.loop
      embedded := c.embedded.getD g.embedded } := by
  obtain ⟨_ | path, loop, embedded⟩ := c <;> rfl

theorem apply_apply (g : Generator) (c c' : Change) : (g.apply c).apply c' = g.apply (c'.after c) := by
  obtain ⟨path, loop, embedded⟩ := c
  obtain ⟨path', loop', embedded'⟩ := c'
  cases path' <;> cases loop' <;> cases embedded' <;> rfl

/-! ## Requests to open a log, by how they end -/

theorem openLog_refused (hs : g.stage ≠ .uninitialized) (t : Tree) (c : Change) :
    g.openLog t c = (g, .error (.wrongStage .openLog g.stage.name)) := by
  unfold openLog
  split
  · exact absurd ‹_› hs
  · rfl

theorem openLog_error (hs : g.stage = .uninitialized) (h : openPath t (g.apply c).path = .error f) :
    g.openLog t c = (g.apply c, .error f) := by
  simp only [openLog, hs, h]

theorem openLog_ok {log : LogFile} (hs : g.stage = .uninitialized) (h : openPath t (g.apply c).path = .ok log) :
    g.openLog t c =
      ({ g.apply c with stage := .ready log, cursor := 0 }, .ok (.mapped log.path log.content.length)) := by
  simp only [openLog, hs, h]

/-- Before a log is opened, a change makes the same difference in two requests as in one. -/
theorem openLog_apply (hs : g.stage = .uninitialized) (t : Tree) (c c' : Change) :
    (g.apply c).openLog t c' = g.openLog t (c'.after c) := by
  have hs' : (g.apply c).stage = .uninitialized := hs
  have happly := apply_apply g c c'
  cases hopen : openPath t (g.apply (c'.after c)).path with
  | error f => rw [openLog_error hs hopen, openLog_error hs' (happly ▸ hopen), happly]
  | ok log => rw [openLog_ok hs hopen, openLog_ok hs' (happly ▸ hopen), happly]

/-- A log is opened at a path that leads to a file with something in it. -/
theorem openPath_iff {path : Option Text} :
    (∃ log, openPath t path = .ok log) ↔ ∃ p bs, path = .some p ∧ t.lookup p = .ok (.file bs) ∧ bs ≠ [] := by
  constructor
  · rintro ⟨log, h⟩
    unfold openPath at h
    split at h
    · cases h
    · rename_i p
      split at h
      · cases h
      · unfold LogFile.openAt at h
        split at h <;> try cases h
        rename_i bs hfile
        split at h
        · cases h
        · rename_i hne
          exact ⟨p, bs, rfl, hfile, by simpa using hne⟩
  · rintro ⟨p, bs, rfl, hfile, hne⟩
    have hp : p ≠ [] := by
      rintro rfl
      rw [lookup_nil] at hfile
      cases hfile
    exact ⟨⟨p, bs, false⟩, by simp [openPath, LogFile.openAt, hp, hfile, hne]⟩

/-- A request to open a log succeeds on a generator that has opened none, at a path that leads to one. -/
theorem openLog_succeeds_iff : (∃ n, (g.openLog t c).2 = .ok n) ↔ g.stage = .uninitialized ∧
    ∃ p bs, (g.apply c).path = .some p ∧ t.lookup p = .ok (.file bs) ∧ bs ≠ [] := by
  rw [← openPath_iff]
  by_cases hs : g.stage = .uninitialized
  · rw [and_iff_right hs]
    cases hopen : openPath t (g.apply c).path with
    | error f =>
      rw [openLog_error hs hopen]
      exact iff_of_false nofun nofun
    | ok log =>
      rw [openLog_ok hs hopen]
      exact iff_of_true ⟨_, rfl⟩ ⟨log, rfl⟩
  · rw [openLog_refused hs]
    exact iff_of_false nofun fun h => hs h.1

/-- A request that succeeds leaves the generator with the log that it has opened. -/
theorem openLog_opened {n : Notice} (h : (g.openLog t c).2 = .ok n) :
    ∃ log, openPath t (g.apply c).path = .ok log ∧ (g.openLog t c).1.stage = .ready log := by
  by_cases hs : g.stage = .uninitialized
  · cases hopen : openPath t (g.apply c).path with
    | error f => rw [openLog_error hs hopen] at h; cases h
    | ok log => rw [openLog_ok hs hopen]; exact ⟨log, rfl, rfl⟩
  · rw [openLog_refused hs] at h
    cases h

/-- A failed request leaves the generator as it was, or else as it was but for the change, before any log
has been opened. -/
theorem openLog_failed (h : (g.openLog t c).2 = .error f) :
    (g.stage ≠ .uninitialized ∧ (g.openLog t c).1 = g) ∨
      (g.stage = .uninitialized ∧ (g.openLog t c).1 = g.apply c) := by
  by_cases hs : g.stage = .uninitialized
  · right
    cases hopen : openPath t (g.apply c).path with
    | error f => rw [openLog_error hs hopen]; exact ⟨hs, rfl⟩
    | ok log => rw [openLog_ok hs hopen] at h; cases h
  · left
    rw [openLog_refused hs]
    exact ⟨hs, rfl⟩

/-- **A failed request to open a log changes at most settings,** and only those that it came with, on a
generator that has opened no log yet. Its stage and the log that it holds, its cursor and its request for a
shutdown are as they were. A later request then does what it would have done at first, with the settings of
the failed one for those that it leaves out; so it does just what it would have done without the failed one
if it leaves none of those out. -/
theorem failed_opening (g : Generator) (t : Tree) (c : Change) :
    ((∃ n, (g.openLog t c).2 = .ok n) ↔ g.stage = .uninitialized ∧
      ∃ p bs, (g.apply c).path = .some p ∧ t.lookup p = .ok (.file bs) ∧ bs ≠ []) ∧
    ∀ f, (g.openLog t c).2 = .error f →
      let g' := (g.openLog t c).1
      (g'.stage = g.stage ∧ g'.cursor = g.cursor ∧ g'.shutdown = g.shutdown) ∧
      (g.stage ≠ .uninitialized → g' = g) ∧
      (g.stage = .uninitialized → g' = { g with
        path := c.path.or g.path
        loop := c.loop.getD g.loop
        embedded := c.embedded.getD g.embedded }) ∧
      ∀ (t' : Tree) (c' : Change),
        (g.stage = .uninitialized → g'.openLog t' c' = g.openLog t' (c'.after c)) ∧
        (c'.after c = c' → g'.openLog t' c' = g.openLog t' c') := by
  refine ⟨openLog_succeeds_iff, ?_⟩
  intro f hf g'
  rcases openLog_failed hf with ⟨hs, hg⟩ | ⟨hs, hg⟩
  · have hg' : g' = g := hg
    rw [hg']
    exact ⟨⟨rfl, rfl, rfl⟩, fun _ => rfl, fun h => absurd h hs, fun t' c' => ⟨fun h => absurd h hs, fun _ => rfl⟩⟩
  · have hg' : g' = g.apply c := hg
    rw [hg']
    refine ⟨⟨rfl, rfl, rfl⟩, fun h => absurd hs h, fun _ => apply_eq g c, ?_⟩
    intro t' c'
    refine ⟨fun _ => openLog_apply hs t' c c', ?_⟩
    intro hc
    rw [openLog_apply hs, hc]

/-- A generator of the log at `a` is asked for one at `b`, where there is none, and to loop. It has the
settings that came with the request, and does not open the log at `a` any more. -/
theorem failed_opening_redirects :
    let t : Tree := ⟨[], [([[97]], .file [47, 0])]⟩
    let g : Generator := { path := .some "a" }
    let g' := (g.openLog t { path := .some "b", loop := .some true }).1
    (g.openLog t { path := .some "b", loop := .some true }).2 = .error (.cannotOpen "b" .noEntry) ∧
      g.path ≠ g'.path ∧ g.loop ≠ g'.loop ∧ (g.openLog t {}).2 = .ok (.mapped "a" 2) ∧
      (g'.openLog t {}).2 = .error (.cannotOpen "b" .noEntry) :=
  ⟨rfl, by decide, by decide, rfl, rfl⟩

end RequestLog.Generator
