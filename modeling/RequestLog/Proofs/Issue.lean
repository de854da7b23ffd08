/-
The calls of a run, in closed form. While a run of one generator on an engine
with nothing else attached goes on, the engine's calls are those of the
requests answered so far, and it is stopping as soon as the generator has
asked for it (`Playing`). Each call keeps this (`Playing.newCall`), so the run
ends where its calls do (`issue_playing`).
-/
import RequestLog.Proofs.Replay

namespace RequestLog.Session

open Generator

/-- Call number `k`, counted from 0, of an engine with headers of its own, for a request. -/
def callFor (extra : List Bytes) (k : Nat) (r : Record) : Call :=
  { id := ↑(k + 1), target := .some r.target, headers := extra ++ r.header.toList }

/-- How many calls come of a log with `n` requests: one more than those, or the number asked for if
that is smaller or the log is looped. -/
def callsIssued (n : Nat) (loop : Bool) : Option Nat → Nat
  | .none => n + 1
  | .some m => if loop then m else min m (n + 1)

theorem callsIssued_le (n : Nat) (count : Option Nat) : callsIssued n false count ≤ n + 1 := by
  rcases count with _ | m
  · exact Nat.le_refl _
  · exact Nat.min_le_right ..

variable {s : Session} {i : Nat} {g : Generator} {log : LogFile}

/-! ## A single call -/

theorem fill_fresh (extra : List Bytes) (k : Nat) (r : Record) :
    fill { id := ↑(k + 1), headers := extra } r = callFor extra k r := by
  obtain ⟨target, _ | h⟩ := r <;> simp [fill, callFor, Call.setTarget, Call.appendHeader, Call.portion, Bytes.slice]

/-- What an attached generator passes on of a request. -/
theorem produce_attached (hi : s.generators[i]? = .some g) (hl : g.listener = .engine) :
    s.produce i = ⟨{ s.withGenerator i g.produce.generator with stopping := s.stopping || 0 < g.produce.asks },
      (g.produce.told s.level).map .notice, g.produce.result⟩ := by
  simp [produce, generator_eq hi, hl]

theorem handleAll_singleton (s : Session) (event : Text) (c : Call) (h : Handler) :
    s.handleAll event c [h] = s.handle event c h := by
  rcases hr : s.handle event c h with ⟨s', signals, f | c'⟩ <;> simp [handleAll, hr]

/-- A call of an engine with a single generator attached. -/
theorem newCall_attached {r : Record} (hi : s.generators[i]? = .some g) (hl : g.listener = .engine)
    (hh : s.handlers = [(newCallEvent, .generator i)]) (hr : g.produce.result = .ok r) :
    s.newCall =
      ⟨{ s.withGenerator i g.produce.generator with
          built := s.built + 1
          stopping := s.stopping || 0 < g.produce.asks
          issued := s.issued ++ [callFor s.extra s.built r] },
        (g.produce.told s.level).map .notice, .ok (callFor s.extra s.built r)⟩ := by
  have hhandlers : { s with built := s.built + 1 }.handlersOf newCallEvent = [.generator i] := by
    simp [handlersOf, hh]
  have hproduce := produce_attached (s := { s with built := s.built + 1 }) hi hl
  simp only [newCall, fire, hhandlers, handleAll_singleton, handle, hproduce, hr, Except.map, fill_fresh]
  rfl

/-! ## The state of a run -/

/-- A run after `k` calls. -/
structure Playing (s : Session) (i : Nat) (g : Generator) (extra : List Bytes) (requests : List Record) (k : Nat) :
    Prop where
  current : s.generators[i]? = .some (g.after k)
  handlers : s.handlers = [(newCallEvent, .generator i)]
  extra_eq : s.extra = extra
  built : s.built = k
  stopping : s.stopping = (g.after k).shutdown
  length_issued : s.issued.length = k
  issued : ∀ j < k, ∃ r, requests[j % requests.length]? = .some r ∧ s.issued[j]? = .some (callFor extra j r)

variable {extra : List Bytes} {requests : List Record} {count : Option Nat} {k : Nat}

theorem Playing.newCall (hg : g.AtFront log) (hl : g.listener = .engine)
    (hrequests : Scan.requests g.embedded log.content = requests) (hne : requests ≠ [])
    (h : s.Playing i g extra requests k) :
    (∃ c, s.newCall.result = .ok c) ∧ s.newCall.session.Playing i g extra requests (k + 1) := by
  subst hrequests
  obtain ⟨r, hr⟩ := exists_request hne k
  have hres := (hg.cycle hr).1
  have hnew := newCall_attached h.current (by rw [after_listener, hl]) h.handlers hres
  rw [hnew]
  refine ⟨⟨_, rfl⟩, withGenerator_self h.current _, h.handlers, h.extra_eq, ?_, ?_, ?_, ?_⟩
  · rw [← h.built]
  · rw [after, produce_shutdown, ← h.stopping]
  · simp [h.length_issued]
  · intro j hj
    rcases Nat.lt_succ_iff_lt_or_eq.1 hj with hlt | rfl
    · obtain ⟨r', hr', hcall⟩ := h.issued j hlt
      exact ⟨r', hr', by rw [List.getElem?_append_left (by rw [h.length_issued]; exact hlt), hcall]⟩
    · exact ⟨r, hr, by simp [← h.length_issued, h.extra_eq, h.built]⟩

/-- A run is done when it has made its calls, and not before. -/
theorem Playing.isDone (hg : g.AtFront log) (hrequests : Scan.requests g.embedded log.content = requests)
    (hne : requests ≠ []) (hcount : count = .none → g.loop = false) (h : s.Playing i g extra requests k) :
    s.isDone (count.map Int.ofNat) = decide (callsIssued requests.length g.loop count ≤ k) := by
  subst hrequests
  unfold Session.isDone
  rw [h.stopping, hg.after_shutdown hne, h.length_issued]
  rcases count with _ | m
  · simp only [hcount rfl, callsIssued, Option.map_none, Bool.not_false, Bool.and_true, Bool.or_false]
    exact decide_eq_decide.2 Nat.lt_iff_add_one_le
  · cases hl : g.loop with
    | true => simp [callsIssued]
    | false =>
      simp only [callsIssued, Bool.not_false, Bool.and_true, Option.map_some, Int.ofNat_eq_natCast, Int.ofNat_le,
        Bool.false_eq_true, if_false, ← Bool.decide_or]
      exact decide_eq_decide.2 (by omega)

/-- A run that goes on long enough makes its calls and no more. -/
theorem issue_playing {fuel : Nat} (hg : g.AtFront log) (hl : g.listener = .engine)
    (hrequests : Scan.requests g.embedded log.content = requests) (hne : requests ≠ [])
    (hcount : count = .none → g.loop = false) (h : s.Playing i g extra requests k)
    (hk : k ≤ callsIssued requests.length g.loop count)
    (hfuel : callsIssued requests.length g.loop count ≤ k + fuel) :
    ∃ r, issue (count.map Int.ofNat) fuel s = .some r ∧ r.result = .ok () ∧
      r.session.Playing i g extra requests (callsIssued requests.length g.loop count) := by
  have hdone := h.isDone hg hrequests hne hcount
  induction fuel generalizing s k with
  | zero =>
    have heq := Nat.le_antisymm hk hfuel
    rw [decide_eq_true (Nat.le_of_eq heq.symm)] at hdone
    exact ⟨_, by rw [issue, if_pos hdone], rfl, heq ▸ h⟩
  | succ fuel ih =>
    rcases Nat.lt_or_eq_of_le hk with hlt | heq
    · rw [decide_eq_false (Nat.not_le_of_lt hlt)] at hdone
      obtain ⟨⟨c, hc⟩, hnext⟩ := h.newCall hg hl hrequests hne
      obtain ⟨r, hissue, hres, hr⟩ := ih hnext hlt (by omega) (hnext.isDone hg hrequests hne hcount)
      refine ⟨{ r with signals := s.newCall.signals ++ r.signals }, ?_, hres, hr⟩
      simp only [issue, hdone, Bool.false_eq_true, if_false, hc, hissue, Option.map_some]
    · rw [decide_eq_true (Nat.le_of_eq heq.symm)] at hdone
      exact ⟨_, by rw [issue, if_pos hdone], rfl, heq ▸ h⟩

/-! ## A whole run -/

/-- An engine as it is made: nothing is attached to it and no call has been built. -/
structure Fresh (s : Session) : Prop where
  handlers : s.handlers = []
  stopping : s.stopping = false
  issued : s.issued = []
  built : s.built = 0

/-- A generator as a run gets it ready. -/
def attached (g : Generator) (log : LogFile) : Generator :=
  { g with stage := .ready log, cursor := 0, listener := .engine }

theorem Fresh.start {path : Text} {bs : Bytes} (hs : s.Fresh) (hi : s.generators[i]? = .some g) (hg : g.Fresh)
    (hpath : g.path = .some path) (hfile : s.tree.lookup path = .ok (.file bs)) (hne : bs ≠ []) :
    (s.start i).result = .ok () ∧
      (s.start i).session.Playing i (attached g ⟨path, bs, false⟩) s.extra (Scan.requests g.embedded bs) 0 := by
  have hready : g.apply {} = g := by simp [apply]
  have hopen := openLog_fresh hi hg (hready.symm ▸ hpath) hfile hne
  have hi' := withGenerator_self hi { g with stage := .ready ⟨path, bs, false⟩, cursor := 0 }
  rw [hready] at hopen
  simp only [Session.start, hopen, attach, generator_eq hi']
  refine ⟨trivial, withGenerator_self hi' _, ?_, rfl, hs.built, ?_, ?_, fun j hj => absurd hj (Nat.not_lt_zero j)⟩
  · simp [withGenerator, hs.handlers]
  · exact hs.stopping.trans hg.shutdown.symm
  · simp [withGenerator, hs.issued]

/-- **A run in closed form.** A fresh engine that runs a fresh generator on a log with requests ends
after one call more than those, or after the number of calls asked for if that is smaller or the log
is looped. Call number `k`, counted from 0, is made from the request at place `k` modulo their number
and takes along the engine's own headers and those of no other request. The engine is stopping if
the log has been replayed, and the generator is stopped, with its log closed. -/
theorem run_closed_form {path : Text} {bs : Bytes} (hs : s.Fresh)
    (hi : s.generators[i]? = .some g) (hg : g.Fresh) (hpath : g.path = .some path)
    (hfile : s.tree.lookup path = .ok (.file bs)) (hne : Scan.requests g.embedded bs ≠ [])
    (hcount : count = .none → g.loop = false) :
    let requests := Scan.requests g.embedded bs
    let calls := callsIssued requests.length g.loop count
    ∀ fuel ≥ calls, ∃ r, s.run i (count.map Int.ofNat) fuel = .some r ∧
      r.result = .ok r.session.issued ∧ r.session.issued.length = calls ∧
      (∀ k < calls, ∃ q, requests[k % requests.length]? = .some q ∧
        r.session.issued[k]? =
          .some { id := ↑(k + 1), target := .some q.target, headers := s.extra ++ q.header.toList }) ∧
      r.session.stopping = (!g.loop && calls = requests.length + 1) ∧
      (r.session.generator i).stage = .stopped (.some ⟨path, bs, true⟩) := by
  intro requests calls fuel hfuel
  have hlog : bs ≠ [] := by
    intro hnil
    subst hnil
    exact hne rfl
  have hfront : (attached g ⟨path, bs, false⟩).AtFront ⟨path, bs, false⟩ := ⟨rfl, rfl, hg.shutdown⟩
  obtain ⟨hstarted, hplaying⟩ := hs.start hi hg hpath hfile hlog
  have henough : calls ≤ 0 + fuel := by rw [Nat.zero_add]; exact hfuel
  obtain ⟨r, hissue, hres, hr⟩ := issue_playing hfront rfl rfl hne hcount hplaying (Nat.zero_le _) henough
  refine ⟨⟨r.session.finalize i, (s.start i).signals ++ r.signals, .ok r.session.issued⟩, ?_, rfl,
    hr.length_issued, hr.issued, ?_, ?_⟩
  · simp only [run, hstarted, hissue, Option.map_some, hres]
    rfl
  · have hstopping : r.session.stopping = (requests.length < calls && !g.loop) :=
      hr.stopping.trans (hfront.after_shutdown hne _)
    have hle : g.loop = false → calls ≤ requests.length + 1 := fun hl => by
      simp only [calls, hl]
      exact callsIssued_le ..
    change r.session.stopping = _
    rw [hstopping, Bool.and_comm]
    cases hl : g.loop with
    | true => rfl
    | false => exact congrArg (!false && ·) (decide_eq_decide.2 (by have := hle hl; omega))
  · have hcurrent := generator_eq hr.current
    have hready : (r.session.generator i).stage = .ready ⟨path, bs, false⟩ := by
      rw [hcurrent, after_stage]
      rfl
    refine (congrArg Generator.stage (generator_eq (withGenerator_self hr.current _))).trans ?_
    rw [Generator.finalize, hready]
    rfl

theorem run_closed_form_twoRequests : ∃ r, twoRequests.run 0 (.some 7) 3 = .some r ∧
    r.result = .ok r.session.issued ∧ r.session.issued.length = 3 ∧
    r.session.issued[2]? = .some { id := 3, target := .some [47, 120], headers := [[98], [97]] } ∧
    r.session.stopping = true ∧
    (r.session.generator 0).stage = .stopped (.some ⟨"log", [0, 97, 1, 47, 120, 0, 0, 47, 121], true⟩) := by
  have hcalls : callsIssued (Scan.requests true [0, 97, 1, 47, 120, 0, 0, 47, 121]).length false (.some 7) = 3 := by
    rw [requests_twoRequests]; rfl
  have hcount : Option.some 7 = .none → false = false := fun _ => rfl
  obtain ⟨r, hrun, hres, hlength, hissued, hstopping, hstage⟩ :=
    run_closed_form (s := twoRequests) (i := 0) ⟨rfl, rfl, rfl, rfl⟩ rfl ⟨rfl, rfl⟩ rfl rfl
      (by rw [requests_twoRequests]; simp) hcount 3 (Nat.le_of_eq hcalls)
  obtain ⟨q, hq, hcall⟩ := hissued 2 (hcalls.symm ▸ Nat.lt_succ_self 2)
  rw [requests_twoRequests] at hq hstopping
  cases hq
  rw [hcalls] at hlength
  exact ⟨r, hrun, hres, hlength, hcall, hstopping, hstage⟩

end RequestLog.Session
