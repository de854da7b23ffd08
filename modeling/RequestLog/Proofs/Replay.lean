/-
Replay of a log in a session: what a generator that has just opened its log
answers, and when it tells its observer that the log has been replayed.
-/
import RequestLog.Proofs.Cycle

namespace RequestLog

namespace Generator

/-- A generator as it is made: without a log, and with nothing asked for. -/
structure Fresh (g : Generator) : Prop where
  stage : g.stage = .uninitialized
  shutdown : g.shutdown = false

theorem lookup_nil (t : Tree) : t.lookup [] = .error (.refused .noEntry) := rfl

theorem Fresh.openLog {g : Generator} {t : Tree} {c : Change} {path : Text} {content : Bytes} (h : g.Fresh)
    (hpath : (g.apply c).path = .some path) (hfile : t.lookup path = .ok (.file content)) (hne : content ≠ []) :
    g.openLog t c =
      ({ g.apply c with stage := .ready ⟨path, content, false⟩, cursor := 0 },
        .ok (.mapped path content.length)) := by
  have hp : path.isEmpty = false := by
    rw [List.isEmpty_eq_false_iff]
    intro hnil
    rw [hnil, lookup_nil] at hfile; cases hfile
  have hopen : openPath t (g.apply c).path = .ok ⟨path, content, false⟩ := by
    simp [hpath, openPath, hp, LogFile.openAt, hfile, List.isEmpty_iff, hne]
  simp only [Generator.openLog, h.stage, hopen]

theorem Fresh.atFront {g : Generator} (h : g.Fresh) (c : Change) (log : LogFile) :
    AtFront { g.apply c with stage := .ready log, cursor := 0 } log :=
  ⟨rfl, rfl, h.shutdown⟩

end Generator

namespace Session

open Generator

variable {s : Session} {i : Nat} {g : Generator}

theorem generator_eq (hi : s.generators[i]? = .some g) : s.generator i = g := by simp [generator, hi]

theorem withGenerator_self (hi : s.generators[i]? = .some g) (g' : Generator) :
    (s.withGenerator i g').generators[i]? = .some g' := by
  obtain ⟨hlt, _⟩ := List.getElem?_eq_some_iff.1 hi
  simp [withGenerator, hlt]

theorem generator_withGenerator (s : Session) (i j : Nat) (g : Generator) :
    (s.withGenerator i g).generator j = if j = i ∧ i < s.generators.length then g else s.generator j := by
  by_cases hj : j = i
  · subst hj
    by_cases hlt : j < s.generators.length
    · simp [generator, withGenerator, hlt]
    · simp [generator, withGenerator, hlt]
  · simp [generator, withGenerator, hj, List.getElem?_set_ne (Ne.symm hj)]

theorem openLog_fresh {c : Change} {path : Text} {content : Bytes} (hi : s.generators[i]? = .some g) (hg : g.Fresh)
    (hpath : (g.apply c).path = .some path) (hfile : s.tree.lookup path = .ok (.file content))
    (hne : content ≠ []) :
    s.openLog i c =
      ⟨s.withGenerator i { g.apply c with stage := .ready ⟨path, content, false⟩, cursor := 0 },
        [.notice (.mapped path content.length)], .ok ()⟩ := by
  simp only [openLog, generator_eq hi, hg.openLog hpath hfile hne]

/-- What an observed generator shows of a request: that it asked for a shutdown, and its notices. -/
theorem produce_observed (hi : s.generators[i]? = .some g) (hl : g.listener = .observer) :
    s.produce i = ⟨s.withGenerator i g.produce.generator,
      List.replicate g.produce.asks (.shutdown i) ++ (g.produce.told s.level).map .notice, g.produce.result⟩ := by
  simp [produce, generator_eq hi, hl, withGenerator]

/-- A session after some requests to one of its generators, and all that was seen of them. -/
def afterRequests (s : Session) (i : Nat) : Nat → Session × List Signal
  | 0 => (s, [])
  | k + 1 =>
    let (s', seen) := s.afterRequests i k
    ((s'.produce i).session, seen ++ (s'.produce i).signals)

theorem afterRequests_observed (hi : s.generators[i]? = .some g) (hl : g.listener = .observer) (k : Nat) :
    (s.afterRequests i k).1.generators[i]? = .some (g.after k) ∧
      (s.afterRequests i k).2.count (.shutdown i) = if g.loop then 0 else g.wrapsWithin k := by
  induction k with
  | zero => simp [afterRequests, hi, after, wrapsWithin]
  | succ k ih =>
    obtain ⟨hk, hcount⟩ := ih
    have hnotices : ∀ ns : List Notice, (ns.map Signal.notice).count (.shutdown i) = 0 := by
      intro ns
      simp [List.count_eq_zero]
    simp only [afterRequests, produce_observed hk (by rw [after_listener, hl]), List.count_append, hcount,
      hnotices, List.count_replicate_self, produce_asks, after_loop, wrapsWithin]
    refine ⟨withGenerator_self hk _, ?_⟩
    split <;> rfl

/-- **A log is replayed in a cycle.** A generator that has just opened a log with requests answers
request number `k`, counted from 0, with the request at place `k` modulo their number. Unless it
loops it has by then asked for a shutdown once for each whole cycle, and shows that it has from the
first on; if it loops it never asks. -/
theorem replay_cycles {c : Change} {path : Text} {log : Bytes} (hi : s.generators[i]? = .some g) (hg : g.Fresh)
    (hl : g.listener = .observer) (hpath : (g.apply c).path = .some path)
    (hfile : s.tree.lookup path = .ok (.file log)) (hne : Scan.requests (g.apply c).embedded log ≠ []) :
    (s.openLog i c).result = .ok () ∧ ∀ k,
      let requests := Scan.requests (g.apply c).embedded log
      let before := (s.openLog i c).session.afterRequests i k
      let reply := before.1.produce i
      (∃ r, requests[k % requests.length]? = .some r ∧ reply.result = .ok r) ∧
        (before.2 ++ reply.signals).count (.shutdown i) =
          (if (g.apply c).loop then 0 else k / requests.length) ∧
        (reply.session.generator i).shutdown = (!(g.apply c).loop && requests.length ≤ k) := by
  have hlog : log ≠ [] := by
    intro hnil
    subst hnil
    exact hne rfl
  have hfront := hg.atFront c ⟨path, log, false⟩
  rw [openLog_fresh hi hg hpath hfile hlog]
  refine ⟨rfl, ?_⟩
  intro k
  have hready := withGenerator_self hi { g.apply c with stage := .ready ⟨path, log, false⟩, cursor := 0 }
  obtain ⟨r, hr⟩ := exists_request hne k
  obtain ⟨hres, hwraps⟩ := hfront.cycle hr
  have hshutdown := hfront.after_shutdown hne (k + 1)
  rw [Bool.and_comm] at hshutdown
  have hk := (afterRequests_observed hready hl k).1
  obtain ⟨hk', hcount⟩ := afterRequests_observed hready hl (k + 1)
  refine ⟨⟨r, hr, ?_⟩, ?_, ?_⟩
  · rw [produce_observed hk (by rw [after_listener]; exact hl)]
    exact hres
  · rw [hwraps] at hcount
    exact hcount
  · simp only [Nat.lt_succ_iff] at hshutdown
    exact (congrArg Generator.shutdown (generator_eq hk')).trans hshutdown

/-- A session with a generator on a log of two requests, of which the first has a header. -/
def twoRequests : Session where
  tree := ⟨[], [([[108, 111, 103]], .file [0, 97, 1, 47, 120, 0, 0, 47, 121])]⟩
  generators := [{ path := .some "log", embedded := true, listener := .observer }]
  extra := [[98]]

theorem requests_twoRequests : Scan.requests true [0, 97, 1, 47, 120, 0, 0, 47, 121] =
    [⟨[47, 120], .some [97]⟩, ⟨[47, 121], .none⟩] := by
  decide +kernel

theorem replay_cycles_twoRequests :
    let before := (twoRequests.openLog 0 {}).session.afterRequests 0 5
    let reply := before.1.produce 0
    reply.result = .ok ⟨[47, 121], .none⟩ ∧ (before.2 ++ reply.signals).count (.shutdown 0) = 2 ∧
      (reply.session.generator 0).shutdown = true := by
  obtain ⟨_, hcycle⟩ := replay_cycles (s := twoRequests) (i := 0) (c := {}) rfl ⟨rfl, rfl⟩ rfl rfl rfl
    (requests_twoRequests ▸ List.cons_ne_nil _ _)
  obtain ⟨⟨r, hr, hres⟩, hcount, hshutdown⟩ := hcycle 5
  simp only [Generator.apply, Option.getD_none, requests_twoRequests] at hr hcount hshutdown
  cases hr
  exact ⟨hres, hcount, hshutdown⟩

end Session

end RequestLog
