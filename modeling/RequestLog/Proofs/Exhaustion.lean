/-
Requests always end. One that is answered reads each record at most once;
one that fails has come to the end twice, and then no record of the log has a
target, so that every later request fails in the same way. Where a request
begins makes no difference, as long as it is between records, and a request
of either outcome leaves the generator there (`Reading.produce`).
-/
import RequestLog.Proofs.Replay

namespace RequestLog.Generator

open Scan

variable {g : Generator} {log : LogFile}

/-- A request to a log with a target is answered, and reads no more records than there are. -/
theorem Reading.answers (h : g.Reading log) (hsome : targeted g.embedded log.content ≠ []) :
    (∃ r, g.produce.result = .ok r) ∧ g.produce.reads ≤ (pieces log.content).length ∧
      g.produce.generator.Reading log := by
  obtain ⟨c, _, _, r, hc, hn, hseek⟩ := seek_some h.boundary hsome
  obtain ⟨hg, _, hreads, hres⟩ := produce_found h.stage hseek
  refine ⟨⟨_, hres⟩, hreads ▸ hn, ?_⟩
  rw [hg]
  exact ⟨h.stage, hc⟩

/-- A request to a log without a target fails, after two reads of each record at most and one that
comes to the end again. -/
theorem Reading.fails (h : g.Reading log) (hne : log.content ≠ []) (hnone : targeted g.embedded log.content = []) :
    g.produce.result = .error (.noRecords log.path) ∧ g.produce.wraps = 1 ∧
      g.produce.reads ≤ 2 * (pieces log.content).length + 1 ∧ g.produce.generator.Reading log := by
  obtain ⟨c, hc, hseek⟩ := seek_nothing hne h.boundary hnone
  obtain ⟨hg, hw, hreads, hres⟩ := produce_lost h.stage hseek
  have hlength := congrArg List.length h.boundary.pieces_eq
  rw [List.length_append] at hlength
  refine ⟨hres, hw, by omega, ?_⟩
  rw [hg]
  exact ⟨h.stage, hc⟩

/-- However requests end, the generator stays ready between records of its log. -/
theorem Reading.after (h : g.Reading log) (hne : log.content ≠ []) (k : Nat) : (g.after k).Reading log := by
  induction k with
  | zero => exact h
  | succ k ih =>
    by_cases hsome : targeted (g.after k).embedded log.content = []
    · exact (ih.fails hne hsome).2.2.2
    · exact (ih.answers hsome).2.2

theorem after_after (g : Generator) (k j : Nat) : (g.after k).produce.generator.after j = g.after (k + 1 + j) := by
  induction j with
  | zero => rfl
  | succ j ih => rw [after, ih]; rfl

/-- **Requests end, and fail only where no record has a target.** Whatever requests a generator has
answered or refused since it opened its log, the next one ends: it fails if and only if no record of
the log has a target. One that is answered reads at most the records there are. One that fails reads
at most twice as many and one, leaves the generator ready between records, has asked for a shutdown
once unless the log is looped, and all later requests fail in the same way. -/
theorem requests_end {t : Tree} {c : Change} {path : Text} {bs : Bytes} (hg : g.Fresh)
    (hpath : (g.apply c).path = .some path) (hfile : t.lookup path = .ok (.file bs)) (hne : bs ≠ []) (k : Nat) :
    let reply := (((g.openLog t c).1).after k).produce
    (reply.result = .error (.noRecords path) ↔
        ∀ p ∈ pieces bs, (Record.split (g.apply c).embedded p).target = []) ∧
      (∀ r, reply.result = .ok r → reply.reads ≤ (pieces bs).length) ∧
      ∀ f, reply.result = .error f →
        f = .noRecords path ∧ reply.reads ≤ 2 * (pieces bs).length + 1 ∧
        reply.generator.stage = .ready ⟨path, bs, false⟩ ∧ AtBoundary bs reply.generator.cursor ∧
        reply.asks = (if (g.apply c).loop then 0 else 1) ∧
        ∀ j, (reply.generator.after j).produce.result = .error f := by
  rw [hg.openLog hpath hfile hne]
  have hstart := (hg.atFront c ⟨path, bs, false⟩).reading
  have hreading := hstart.after hne
  have hnone : targeted (g.apply c).embedded bs = [] ↔
      ∀ p ∈ pieces bs, (Record.split (g.apply c).embedded p).target = [] := withTarget_eq_nil_iff
  rw [← hnone]
  by_cases htargets : targeted (g.apply c).embedded bs = []
  · have hfails := fun k => (hreading k).fails hne (by rw [after_embedded]; exact htargets)
    obtain ⟨hres, hw, hreads, hready⟩ := hfails k
    refine ⟨iff_of_true hres htargets, ?_, ?_⟩
    · intro r hr
      rw [hres] at hr; cases hr
    · intro f hf
      rw [hres] at hf
      cases hf
      refine ⟨rfl, hreads, hready.stage, hready.boundary, ?_, ?_⟩
      · rw [produce_asks, after_loop, hw]
      · intro j
        rw [after_after]
        exact (hfails _).1
  · obtain ⟨⟨r, hres⟩, hreads, _⟩ := (hreading k).answers (by rw [after_embedded]; exact htargets)
    refine ⟨iff_of_false ?_ htargets, fun _ _ => hreads, ?_⟩
    · intro hf
      rw [hres] at hf; cases hf
    · intro f hf
      rw [hres] at hf; cases hf

theorem requests_end_without_targets :
    let g : Generator := { path := .some "log", embedded := true }
    let t : Tree := ⟨[], [([[108, 111, 103]], .file [97, 1, 0, 0])]⟩
    let reply := (((g.openLog t {}).1).after 2).produce
    reply.result = .error (.noRecords "log") ∧ reply.reads ≤ 5 ∧ reply.asks = 1 ∧
      (reply.generator.after 3).produce.result = .error (.noRecords "log") := by
  intro g t reply
  have hpath : (g.apply {}).path = .some "log" := rfl
  have hfile : t.lookup "log" = .ok (.file [97, 1, 0, 0]) := rfl
  obtain ⟨hiff, _, hfails⟩ := requests_end ⟨rfl, rfl⟩ hpath hfile (List.cons_ne_nil _ _) 2
  have hres : reply.result = .error (.noRecords "log") := hiff.2 (by decide)
  obtain ⟨_, hreads, _, _, hasks, hlater⟩ := hfails _ hres
  exact ⟨hres, hreads, hasks, hlater 3⟩

end RequestLog.Generator
