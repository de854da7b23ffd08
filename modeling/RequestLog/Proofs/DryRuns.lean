/-
What a dry run comes to. The log has to be there (`run_absent`) and must not
be empty (`run_empty`). A run that is to make no call makes none, whatever is in
the log (`run_idle`). Any other run fails at its first call where the log has
no requests (`run_exhausted`), and makes its calls where it has some
(`run_calls`): no run fails once it has made a call.
-/
import RequestLog.DryRun
import RequestLog.Proofs.Exhaustion
import RequestLog.Proofs.Issue

namespace RequestLog

namespace Scan

theorem length_pieces_le (log : Bytes) : (pieces log).length ≤ log.length := by
  induction log using record_induction with
  | nil => exact Nat.le_refl _
  | last p hp hne =>
    rw [pieces_unterminated hp hne]
    exact List.length_pos_iff.2 hne
  | record p rest hp ih =>
    rw [pieces_terminated hp]
    simp only [List.length_cons, List.length_append]
    omega

theorem length_requests_le (e : Bool) (log : Bytes) : (requests e log).length ≤ log.length := by
  have hfilter := List.length_filter_le (fun r : Record => !r.target.isEmpty) ((pieces log).map (Record.split e))
  have hpieces := length_pieces_le log
  rw [List.length_map] at hfilter
  rw [requests, List.length_map]
  exact Nat.le_trans hfilter hpieces

theorem requests_eq_nil_iff {e : Bool} {log : Bytes} : requests e log = [] ↔ targeted e log = [] := List.map_eq_nil_iff

end Scan

/-! ## Runs of a fresh engine -/

namespace Session

open Generator

variable {s : Session} {i : Nat} {g : Generator} {path : Text} {bs : Bytes} {count : Option Nat} {fuel : Nat}
  {f : Failure}

/-- A call fails if the only generator attached does. -/
theorem newCall_failed (hi : s.generators[i]? = .some g) (hl : g.listener = .engine)
    (hh : s.handlers = [(newCallEvent, .generator i)]) (hf : g.produce.result = .error f) :
    s.newCall.result = .error f := by
  have hhandlers : { s with built := s.built + 1 }.handlersOf newCallEvent = [.generator i] := by
    simp [handlersOf, hh]
  have hproduce := produce_attached (s := { s with built := s.built + 1 }) hi hl
  simp only [newCall, fire, hhandlers, handleAll_singleton, handle, hproduce, hf, Except.map]

theorem run_refused (h : (s.start i).result = .error f) (count : Option Int) (fuel : Nat) :
    ∃ r, s.run i count fuel = .some r ∧ r.result = .error f := by
  unfold Session.run
  simp only [h]
  exact ⟨_, rfl, rfl⟩

/-- A log that cannot be opened is the end of a run. -/
theorem Fresh.start_refused (hi : s.generators[i]? = .some g) (hg : g.Fresh) (hpath : g.path = .some path)
    (hne : path ≠ []) (hopen : LogFile.openAt s.tree path = .error f) : (s.start i).result = .error f := by
  have hopenPath : openPath s.tree (g.apply {}).path = .error f := by
    simp [apply, hpath, openPath, List.isEmpty_iff, hne, hopen]
  simp only [Session.start, Session.openLog, generator_eq hi, Generator.openLog, hg.stage, hopenPath]

theorem Fresh.run_idle (hs : s.Fresh) (hi : s.generators[i]? = .some g) (hg : g.Fresh) (hpath : g.path = .some path)
    (hfile : s.tree.lookup path = .ok (.file bs)) (hne : bs ≠ []) (fuel : Nat) :
    ∃ r, s.run i (.some 0) fuel = .some r ∧ r.result = .ok [] := by
  obtain ⟨hstarted, hplaying⟩ := hs.start hi hg hpath hfile hne
  have hissued : (s.start i).session.issued = [] := List.length_eq_zero_iff.1 hplaying.length_issued
  have hdone : (s.start i).session.isDone (.some 0) = true := by simp [isDone, hissued]
  have hissue : issue (.some 0) fuel (s.start i).session = .some ⟨(s.start i).session, [], .ok ()⟩ := by
    cases fuel <;> rw [issue, if_pos hdone]
  simp only [run, hstarted, hissue, Option.map_some, Except.map, hissued]
  exact ⟨_, rfl, rfl⟩

theorem Fresh.run_exhausted (hs : s.Fresh) (hi : s.generators[i]? = .some g) (hg : g.Fresh)
    (hpath : g.path = .some path) (hfile : s.tree.lookup path = .ok (.file bs)) (hne : bs ≠ [])
    (hnone : Scan.requests g.embedded bs = []) (hcount : count ≠ .some 0) :
    ∃ r, s.run i (count.map Int.ofNat) (fuel + 1) = .some r ∧ r.result = .error (.noRecords path) := by
  obtain ⟨hstarted, hplaying⟩ := hs.start hi hg hpath hfile hne
  have hfront : (attached g ⟨path, bs, false⟩).AtFront ⟨path, bs, false⟩ := ⟨rfl, rfl, hg.shutdown⟩
  have hfails := (hfront.reading.fails hne (Scan.requests_eq_nil_iff.1 hnone)).1
  have hcall := newCall_failed hplaying.current rfl hplaying.handlers hfails
  have hdone : (s.start i).session.isDone (count.map Int.ofNat) = false := by
    have hstopping : (s.start i).session.stopping = false := hplaying.stopping.trans hg.shutdown
    unfold Session.isDone
    rw [hstopping, hplaying.length_issued]
    rcases count with _ | m
    · rfl
    · have hm : m ≠ 0 := fun hzero => hcount (congrArg Option.some hzero)
      simp [hm]
  simp only [run, hstarted, issue, hdone, Bool.false_eq_true, if_false, hcall, Option.map_some, Except.map]
  exact ⟨_, rfl, rfl⟩

theorem Fresh.run_calls (hs : s.Fresh) (hi : s.generators[i]? = .some g) (hg : g.Fresh) (hpath : g.path = .some path)
    (hfile : s.tree.lookup path = .ok (.file bs)) (hne : Scan.requests g.embedded bs ≠ [])
    (hcount : count = .none → g.loop = false)
    (hfuel : callsIssued (Scan.requests g.embedded bs).length g.loop count ≤ fuel) :
    ∃ r calls, s.run i (count.map Int.ofNat) fuel = .some r ∧ r.result = .ok calls ∧
      calls.length = callsIssued (Scan.requests g.embedded bs).length g.loop count ∧
      ∀ k < calls.length, ∃ q, (Scan.requests g.embedded bs)[k % (Scan.requests g.embedded bs).length]? = .some q ∧
        calls[k]? = .some (callFor s.extra k q) := by
  have hlog : bs ≠ [] := by
    intro hnil
    subst hnil
    exact hne rfl
  have hfront : (attached g ⟨path, bs, false⟩).AtFront ⟨path, bs, false⟩ := ⟨rfl, rfl, hg.shutdown⟩
  obtain ⟨hstarted, hplaying⟩ := hs.start hi hg hpath hfile hlog
  have henough : callsIssued (Scan.requests g.embedded bs).length g.loop count ≤ 0 + fuel := by rwa [Nat.zero_add]
  obtain ⟨r, hissue, hres, hr⟩ := issue_playing hfront rfl rfl hne hcount hplaying (Nat.zero_le _) henough
  refine ⟨⟨r.session.finalize i, (s.start i).signals ++ r.signals, .ok r.session.issued⟩, r.session.issued, ?_, rfl,
    hr.length_issued, ?_⟩
  · simp only [run, hstarted, hissue, Option.map_some, hres]
    rfl
  · intro k hk
    exact hr.issued k (hr.length_issued ▸ hk)

end Session

/-! ## Runs of settings -/

namespace DryRun

open Session

variable {t : Tree} {level : Level} {s : Config.Settings} {f : Failure} {bs : Bytes}

/-- The engine of a dry run, with its generator. -/
def engine (t : Tree) (level : Level) (s : Config.Settings) (headers : List Bytes) : Session :=
  { tree := t, generators := [generator s], extra := headers, level := level }

theorem run_eq (t : Tree) (level : Level) (s : Config.Settings) (headers : List Bytes) :
    run t level s headers = (engine t level s headers).run 0 (s.numCalls.map Int.ofNat) (enough t s) := by
  unfold DryRun.run
  rcases hcount : s.numCalls with _ | n <;> rfl

theorem engine_fresh (t : Tree) (level : Level) (s : Config.Settings) (headers : List Bytes) :
    (engine t level s headers).Fresh :=
  ⟨rfl, rfl, rfl, rfl⟩

theorem generator_fresh (s : Config.Settings) : (generator s).Fresh := ⟨rfl, rfl⟩

theorem run_unopened (hpath : s.file ≠ []) (hopen : LogFile.openAt t s.file = .error f) (headers : List Bytes) :
    ∃ r, run t level s headers = .some r ∧ r.result = .error f :=
  run_refused (Fresh.start_refused (s := engine t level s headers) rfl (generator_fresh s) rfl hpath hopen) _ _

theorem run_absent {fault : Tree.Fault} (hpath : s.file ≠ []) (hfile : t.lookup s.file = .error (.refused fault))
    (headers : List Bytes) : ∃ r, run t level s headers = .some r ∧ r.result = .error (.cannotOpen s.file fault) :=
  run_unopened hpath (by simp only [LogFile.openAt, hfile]) headers

theorem run_empty (hpath : s.file ≠ []) (hfile : t.lookup s.file = .ok (.file [])) (headers : List Bytes) :
    ∃ r, run t level s headers = .some r ∧ r.result = .error (.emptyLog s.file) :=
  run_unopened hpath (by simp only [LogFile.openAt, hfile, List.isEmpty_nil, if_true]) headers

theorem run_idle (hcalls : s.numCalls = .some 0) (hfile : t.lookup s.file = .ok (.file bs)) (hne : bs ≠ [])
    (headers : List Bytes) : ∃ r, run t level s headers = .some r ∧ r.result = .ok [] := by
  rw [run_eq, hcalls]
  exact (engine_fresh t level s headers).run_idle rfl (generator_fresh s) rfl hfile hne _

/-- A dry run goes on long enough to make its calls. -/
theorem enough_eq (hfile : t.lookup s.file = .ok (.file bs)) : enough t s = s.numCalls.getD (bs.length + 1) := by
  unfold enough
  cases s.numCalls with
  | none => simp only [Tree.read, hfile, Option.getD_none]
  | some n => rfl

theorem run_exhausted (hcalls : s.numCalls ≠ .some 0) (hfile : t.lookup s.file = .ok (.file bs)) (hne : bs ≠ [])
    (hnone : Scan.requests s.embedded bs = []) (headers : List Bytes) :
    ∃ r, run t level s headers = .some r ∧ r.result = .error (.noRecords s.file) := by
  obtain ⟨fuel, hfuel⟩ : ∃ fuel, enough t s = fuel + 1 := by
    rw [enough_eq hfile]
    rcases hcount : s.numCalls with _ | n
    · exact ⟨bs.length, rfl⟩
    · exact Nat.exists_eq_succ_of_ne_zero fun hzero => hcalls (hcount.trans (congrArg Option.some hzero))
  rw [run_eq, hfuel]
  exact (engine_fresh t level s headers).run_exhausted rfl (generator_fresh s) rfl hfile hne hnone hcalls

theorem run_calls (hends : s.numCalls = .none → s.loop = false) (hfile : t.lookup s.file = .ok (.file bs))
    (hne : Scan.requests s.embedded bs ≠ []) (headers : List Bytes) :
    ∃ r calls, run t level s headers = .some r ∧ r.result = .ok calls ∧
      calls.length = callsIssued (Scan.requests s.embedded bs).length s.loop s.numCalls ∧
      ∀ k < calls.length, ∃ q, (Scan.requests s.embedded bs)[k % (Scan.requests s.embedded bs).length]? = .some q ∧
        calls[k]? = .some (callFor headers k q) := by
  have hlength := Scan.length_requests_le s.embedded bs
  have henough : callsIssued (Scan.requests s.embedded bs).length s.loop s.numCalls ≤ enough t s := by
    rw [enough_eq hfile]
    rcases s.numCalls with _ | n
    · exact Nat.succ_le_succ hlength
    · simp only [callsIssued, Option.getD_some]
      split
      · exact Nat.le_refl n
      · exact Nat.min_le_left ..
  rw [run_eq]
  exact (engine_fresh t level s headers).run_calls rfl (generator_fresh s) rfl hfile hne hends henough

end DryRun

end RequestLog
