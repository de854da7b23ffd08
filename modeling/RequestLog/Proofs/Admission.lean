/-
Which calls a run admits. While a call is built, a handler that it comes to may
ask for a shutdown (`Asked`); the call goes on through the other handlers and is
issued unless one of them fails, and no call is built after it. A run issues
calls one after the other as long as it is not done (`Issuing`), and then stops
its generator, however it has ended (`run_lifecycle`).
-/
import RequestLog.Proofs.Levels
import RequestLog.Proofs.Retries
import RequestLog.Proofs.Stages

namespace RequestLog.Session

open Generator

variable {s s' : Session} {event : Text} {c c' : Call} {h : Handler} {hs : List Handler} {f : Failure}
  {count : Option Int} {fuel i : Nat} {calls : List Call}

/-! ## Handlers -/

/-- Whether a handler asks for a shutdown when a call comes to it. -/
def asks (s : Session) (c : Call) : Handler → Bool
  | .generator i => 0 < (s.generator i).produce.asks && (s.generator i).listener == .engine
  | .observer o => o.stops c

/-- A handler that a call comes to, on its way through some handlers, asks for a shutdown. -/
inductive Asked (event : Text) : Session → Call → List Handler → Prop
  | here {s : Session} {c : Call} {h : Handler} {hs : List Handler} (hasks : s.asks c h = true) :
      Asked event s c (h :: hs)
  | later {s : Session} {c c' : Call} {h : Handler} {hs : List Handler}
      (hpassed : (s.handle event c h).result = .ok c') (hasked : Asked event (s.handle event c h).session c' hs) :
      Asked event s c (h :: hs)

/-- What handlers leave as it is. -/
structure Kept (s s' : Session) : Prop where
  issued : s'.issued = s.issued
  length : s'.generators.length = s.generators.length
  stage : ∀ j, (s'.generator j).stage = (s.generator j).stage

theorem Kept.trans {s'' : Session} (h : s.Kept s') (h' : s'.Kept s'') : s.Kept s'' :=
  ⟨h'.issued.trans h.issued, h'.length.trans h.length, fun j => (h'.stage j).trans (h.stage j)⟩

/-- A change to a generator that does not change its stage changes no stage. -/
theorem stage_withGenerator {g : Generator} (h : g.stage = (s.generator i).stage) (j : Nat) :
    ((s.withGenerator i g).generator j).stage = (s.generator j).stage := by
  rw [generator_withGenerator]
  split
  · rename_i hj
    rw [h, hj.1]
  · rfl

theorem handle_kept (s : Session) (event : Text) (c : Call) (h : Handler) : s.Kept (s.handle event c h).session := by
  cases h with
  | generator i => exact ⟨rfl, List.length_set, stage_withGenerator (produce_stage _)⟩
  | observer o => exact ⟨rfl, rfl, fun _ => rfl⟩

theorem handle_stopping (s : Session) (event : Text) (c : Call) (h : Handler) :
    (s.handle event c h).session.stopping = (s.stopping || s.asks c h) := by
  cases h <;> rfl

theorem handleAll_kept (s : Session) (event : Text) (c : Call) (hs : List Handler) :
    s.Kept (s.handleAll event c hs).session := by
  induction hs generalizing s c with
  | nil => exact ⟨rfl, rfl, fun _ => rfl⟩
  | cons h hs ih =>
    have hone := handle_kept s event c h
    rw [handleAll_cons, Reply.andThen]
    cases (s.handle event c h).result with
    | error f => exact hone
    | ok c' => exact hone.trans (ih (s.handle event c h).session c')

/-- A session is stopping after a call has passed through handlers if it was, or if one of them has asked. -/
theorem handleAll_stopping (s : Session) (event : Text) (c : Call) (hs : List Handler) :
    (s.handleAll event c hs).session.stopping = true ↔ s.stopping = true ∨ Asked event s c hs := by
  -- a handler that fails has still asked, and those after it are not come to
  induction hs generalizing s c with
  | nil => exact ⟨.inl, fun h => h.resolve_right nofun⟩
  | cons h hs ih =>
    have hone := handle_stopping s event c h
    rw [handleAll_cons, Reply.andThen]
    cases hresult : (s.handle event c h).result with
    | error f =>
      simp only [hone, Bool.or_eq_true]
      refine or_congr_right ⟨.here, ?_⟩
      rintro (hasks | ⟨hpassed, _⟩)
      · exact hasks
      · cases hresult.symm.trans hpassed
    | ok c' =>
      simp only [ih, hone, Bool.or_eq_true, or_assoc]
      refine or_congr_right ⟨?_, ?_⟩
      · rintro (hasks | hasked)
        · exact .here hasks
        · exact .later hresult hasked
      · rintro (hasks | ⟨hpassed, hasked⟩)
        · exact .inl hasks
        · cases hresult.symm.trans hpassed
          exact .inr hasked

/-! ## A call -/

/-- A shutdown is asked for while the next call of a session is built. -/
def AskedNext (s : Session) : Prop :=
  Asked newCallEvent { s with built := s.built + 1 } { id := ↑(s.built + 1), headers := s.extra }
    (s.handlersOf newCallEvent)

/-- What is left of a session by the handlers of its next call. -/
theorem fire_kept (s : Session) :
    s.Kept (Session.fire { s with built := s.built + 1 } newCallEvent
      { id := ↑(s.built + 1), headers := s.extra }).session := by
  have hkept := handleAll_kept { s with built := s.built + 1 } newCallEvent
    { id := ↑(s.built + 1), headers := s.extra } (s.handlersOf newCallEvent)
  exact ⟨hkept.issued, hkept.length, hkept.stage⟩

/-- The call that is built is issued, and none if it could not be. -/
theorem newCall_issued (s : Session) : s.newCall.session.issued = s.issued ++ s.newCall.result.toOption.toList := by
  have hkept := fire_kept s
  rw [newCall_eq, Reply.andThen]
  generalize Session.fire _ _ _ = r at hkept
  cases r.result with
  | error f => exact hkept.issued.trans (List.append_nil _).symm
  | ok c => exact congrArg (· ++ [c]) hkept.issued

theorem newCall_issued_length (h : s.newCall.result = .ok c) :
    s.newCall.session.issued.length = s.issued.length + 1 := by
  rw [newCall_issued, h, List.length_append]
  rfl

theorem newCall_length (s : Session) : s.newCall.session.generators.length = s.generators.length := by
  have hkept := fire_kept s
  rw [newCall_eq, Reply.andThen]
  generalize Session.fire _ _ _ = r at hkept
  cases r.result <;> exact hkept.length

/-- A call changes the stage of no generator. -/
theorem newCall_stage (s : Session) (j : Nat) : (s.newCall.session.generator j).stage = (s.generator j).stage := by
  have hkept := fire_kept s
  rw [newCall_eq, Reply.andThen]
  generalize Session.fire _ _ _ = r at hkept
  cases r.result <;> exact hkept.stage j

theorem newCall_stopping (s : Session) : s.newCall.session.stopping = true ↔ s.stopping = true ∨ s.AskedNext := by
  have hstopping := handleAll_stopping { s with built := s.built + 1 } newCallEvent
    { id := ↑(s.built + 1), headers := s.extra } (s.handlersOf newCallEvent)
  have hsession : s.newCall.session.stopping =
      (Session.fire { s with built := s.built + 1 } newCallEvent
        { id := ↑(s.built + 1), headers := s.extra }).session.stopping := by
    rw [newCall_eq, Reply.andThen]
    generalize Session.fire _ _ _ = r
    cases r.result <;> rfl
  rw [hsession]
  exact hstopping

/-! ## Calls one after the other -/

theorem isDone_of_stopping (h : s.stopping = true) (count : Option Int) : s.isDone count = true := by
  simp only [isDone, h, Bool.true_or]

/-- A session issues calls one after the other, and is not done before any of them. -/
inductive Issuing (count : Option Int) : Session → List Call → Session → Prop
  | none (s : Session) : Issuing count s [] s
  | call {s s' : Session} {c : Call} {calls : List Call} (hopen : s.isDone count = false)
      (hcall : s.newCall.result = .ok c) (hrest : Issuing count s.newCall.session calls s') :
      Issuing count s (c :: calls) s'

/-- How a session comes to its last call: it is done, or the next call fails. -/
inductive Ended (count : Option Int) : Session → Session → Except Failure Unit → Prop
  | done {s : Session} (hdone : s.isDone count = true) : Ended count s s (.ok ())
  | failed {s : Session} {f : Failure} (hopen : s.isDone count = false) (hcall : s.newCall.result = .error f) :
      Ended count s s.newCall.session (.error f)

theorem Issuing.issued (h : Issuing count s calls s') : s'.issued = s.issued ++ calls := by
  induction h with
  | none s => exact (List.append_nil _).symm
  | call _ hcall _ ih =>
    rw [ih, newCall_issued, hcall, List.append_assoc]
    rfl

theorem Issuing.length (h : Issuing count s calls s') : s'.generators.length = s.generators.length := by
  induction h with
  | none s => rfl
  | call _ _ _ ih => exact ih.trans (newCall_length _)

theorem Issuing.stage (h : Issuing count s calls s') (j : Nat) :
    (s'.generator j).stage = (s.generator j).stage := by
  induction h with
  | none s => rfl
  | call _ _ _ ih => exact ih.trans (newCall_stage _ j)

/-- Each call is issued before the count is reached. -/
theorem Issuing.admitted {m : Int} (h : Issuing (.some m) s calls s') :
    ∀ k < calls.length, ↑(s.issued.length + k) < m := by
  induction h with
  | none s => exact fun k hk => absurd hk (Nat.not_lt_zero k)
  | call hopen hcall _ ih =>
    intro k hk
    cases k with
    | zero => simpa [isDone] using (Bool.or_eq_false_iff.1 hopen).2
    | succ k =>
      have hnext := ih k (Nat.lt_of_succ_lt_succ hk)
      rw [newCall_issued_length hcall] at hnext
      omega

theorem Ended.issued {result : Except Failure Unit} (h : Ended count s s' result) : s'.issued = s.issued := by
  cases h with
  | done => rfl
  | failed _ hcall =>
    rw [newCall_issued, hcall]
    exact List.append_nil _

theorem Ended.length {result : Except Failure Unit} (h : Ended count s s' result) :
    s'.generators.length = s.generators.length := by
  cases h with
  | done => rfl
  | failed => exact newCall_length _

theorem Ended.stage {result : Except Failure Unit} (h : Ended count s s' result) (j : Nat) :
    (s'.generator j).stage = (s.generator j).stage := by
  cases h with
  | done => rfl
  | failed => exact newCall_stage _ j

theorem issue_done (h : s.isDone count = true) (fuel : Nat) : issue count fuel s = .some ⟨s, [], .ok ()⟩ := by
  cases fuel <;> rw [issue, if_pos h]

theorem issue_error (hopen : s.isDone count = false) (h : s.newCall.result = .error f) (fuel : Nat) :
    issue count (fuel + 1) s = .some ⟨s.newCall.session, s.newCall.signals, .error f⟩ := by
  simp only [issue, hopen, Bool.false_eq_true, if_false, h]

theorem issue_ok (hopen : s.isDone count = false) (h : s.newCall.result = .ok c) (fuel : Nat) :
    issue count (fuel + 1) s =
      (issue count fuel s.newCall.session).map fun r => { r with signals := s.newCall.signals ++ r.signals } := by
  simp only [issue, hopen, Bool.false_eq_true, if_false, h]

theorem issue_zero (hopen : s.isDone count = false) : issue count 0 s = .none := by
  rw [issue, if_neg (by simp [hopen])]

/-- A run issues calls one after the other up to its end. -/
theorem issue_cases {r : Reply Unit} (h : issue count fuel s = .some r) :
    ∃ calls s', Issuing count s calls s' ∧ Ended count s' r.session r.result := by
  induction fuel generalizing s r with
  | zero =>
    cases hdone : s.isDone count with
    | true =>
      cases (issue_done hdone 0).symm.trans h
      exact ⟨[], s, .none s, .done hdone⟩
    | false => cases (issue_zero hdone).symm.trans h
  | succ fuel ih =>
    cases hdone : s.isDone count with
    | true =>
      cases (issue_done hdone _).symm.trans h
      exact ⟨[], s, .none s, .done hdone⟩
    | false =>
      cases hcall : s.newCall.result with
      | error f =>
        cases (issue_error hdone hcall fuel).symm.trans h
        exact ⟨[], s, .none s, .failed hdone hcall⟩
      | ok c =>
        rw [issue_ok hdone hcall] at h
        obtain ⟨r', hr', rfl⟩ := Option.map_eq_some_iff.1 h
        obtain ⟨calls, s', hissuing, hended⟩ := ih hr'
        exact ⟨c :: calls, s', .call hdone hcall hissuing, hended⟩

/-- A run ends as it does from any of its calls on. -/
theorem Issuing.rest {r : Reply Unit} (h : Issuing count s calls s') (hr : issue count fuel s = .some r) :
    ∃ fuel' r', issue count fuel' s' = .some r' ∧ r'.session = r.session ∧ r'.result = r.result := by
  -- on the calls: each takes one of the fuel, and only the signals before it are lost
  induction h generalizing fuel r with
  | none s => exact ⟨fuel, r, hr, rfl, rfl⟩
  | call hopen hcall _ ih =>
    cases fuel with
    | zero => cases (issue_zero hopen).symm.trans hr
    | succ fuel =>
      rw [issue_ok hopen hcall] at hr
      obtain ⟨r', hr', rfl⟩ := Option.map_eq_some_iff.1 hr
      obtain ⟨fuel', r'', hr'', hsession, hresult⟩ := ih hr'
      exact ⟨fuel', r'', hr'', hsession, hresult⟩

/-- A run that ends from one of its calls on ends. -/
theorem Issuing.before {r' : Reply Unit} (h : Issuing count s calls s') (hr : issue count fuel s' = .some r') :
    ∃ r, issue count (calls.length + fuel) s = .some r := by
  induction h with
  | none s => exact ⟨r', by rw [List.length_nil, Nat.zero_add, hr]⟩
  | @call s _ c calls hopen hcall _ ih =>
    obtain ⟨r, hr⟩ := ih hr
    rw [List.length_cons, Nat.add_right_comm, issue_ok hopen hcall, hr]
    exact ⟨_, rfl⟩

/-- The call during which a shutdown is asked for is the last. -/
theorem issue_asked (hopen : s.isDone count = false) (hasked : s.AskedNext) (fuel : Nat) :
    ∃ r, issue count (fuel + 1) s = .some r ∧ r.session = s.newCall.session ∧
      r.result = s.newCall.result.map fun _ => () := by
  have hdone : s.newCall.session.isDone count = true :=
    isDone_of_stopping ((newCall_stopping s).2 (.inr hasked)) count
  cases hcall : s.newCall.result with
  | error f => exact ⟨_, issue_error hopen hcall fuel, rfl, rfl⟩
  | ok c =>
    rw [issue_ok hopen hcall, issue_done hdone]
    exact ⟨_, rfl, rfl, rfl⟩

/-- A run with a count ends. -/
theorem exists_issue {m : Int} (h : m ≤ ↑(s.issued.length + fuel)) : ∃ r, issue (.some m) fuel s = .some r := by
  -- on the fuel: a call that succeeds brings the session closer to the count
  induction fuel generalizing s with
  | zero =>
    have hdone : s.isDone (.some m) = true := by
      simp only [isDone, Bool.or_eq_true, decide_eq_true_eq]
      exact .inr h
    exact ⟨_, issue_done hdone 0⟩
  | succ fuel ih =>
    cases hdone : s.isDone (.some m) with
    | true => exact ⟨_, issue_done hdone _⟩
    | false =>
      cases hcall : s.newCall.result with
      | error f => exact ⟨_, issue_error hdone hcall fuel⟩
      | ok c =>
        obtain ⟨r, hr⟩ := ih (s := s.newCall.session) (by rw [newCall_issued_length hcall]; omega)
        rw [issue_ok hdone hcall, hr]
        exact ⟨_, rfl⟩

/-! ## Runs -/

theorem withGenerator_generator (s : Session) (i : Nat) : s.withGenerator i (s.generator i) = s := by
  by_cases hi : i < s.generators.length
  · have hset : s.generators.set i (s.generator i) = s.generators := by
      rw [generator_eq (List.getElem?_eq_getElem hi)]
      exact List.set_getElem_self hi
    rw [withGenerator, hset]
  · exact withGenerator_of_le (Nat.le_of_not_lt hi) _

theorem openLog_session (s : Session) (i : Nat) (c : Change) :
    (s.openLog i c).session = s.withGenerator i ((s.generator i).openLog s.tree c).1 := by
  unfold Session.openLog
  split
  rename_i g result hopen
  rw [hopen]
  cases result <;> rfl

theorem openLog_result (s : Session) (i : Nat) (c : Change) :
    (s.openLog i c).result = ((s.generator i).openLog s.tree c).2.map fun _ => () := by
  unfold Session.openLog
  split
  rename_i g result hopen
  rw [hopen]
  cases result <;> rfl

/-- A generator that cannot be got ready leaves its session as it was. -/
theorem start_error (h : (s.start i).result = .error f) : (s.start i).session = s := by
  have hsession := openLog_session s i {}
  rw [start_eq, Reply.andThen, openLog_result] at h ⊢
  cases hopen : ((s.generator i).openLog s.tree {}).2 with
  | ok n =>
    rw [hopen] at h
    cases h
  | error f' =>
    have hsame : ((s.generator i).openLog s.tree {}).1 = s.generator i := by
      rcases openLog_failed hopen with ⟨_, hg⟩ | ⟨_, hg⟩
      · exact hg
      · exact hg.trans (apply_eq _ _)
    rw [hsame, withGenerator_generator] at hsession
    exact hsession

theorem start_ok (h : (s.start i).result = .ok ()) : (s.start i).session = (s.openLog i {}).session.attach i := by
  rw [start_eq, Reply.andThen] at h ⊢
  cases hopen : (s.openLog i {}).result with
  | error f =>
    rw [hopen] at h
    cases h
  | ok _ => rfl

theorem attach_stage (s : Session) (i j : Nat) : ((s.attach i).generator j).stage = (s.generator j).stage :=
  stage_withGenerator (g := { s.generator i with listener := .engine }) rfl j

/-- A generator that has been got ready has an open log. -/
theorem start_ready {g : Generator} (hi : s.generators[i]? = .some g) (h : (s.start i).result = .ok ()) :
    ∃ log, ((s.start i).session.generator i).stage = .ready log ∧ log.closed = false := by
  have hopened : ∃ n, (g.openLog s.tree {}).2 = .ok n := by
    cases hopen : (g.openLog s.tree {}).2 with
    | ok n => exact ⟨n, rfl⟩
    | error f =>
      rw [start_eq, Reply.andThen, openLog_result, generator_eq hi, hopen] at h
      cases h
  obtain ⟨n, hn⟩ := hopened
  obtain ⟨log, hpath, hstage⟩ := openLog_opened hn
  refine ⟨log, ?_, openPath_closed hpath⟩
  rw [start_ok h, attach_stage, openLog_session, generator_eq hi, generator_eq (withGenerator_self hi _)]
  exact hstage

/-- Getting a generator ready stops nothing and makes no call. -/
theorem start_keeps (s : Session) (i : Nat) :
    (s.start i).session.stopping = s.stopping ∧ (s.start i).session.built = s.built ∧
      (s.start i).session.issued = s.issued ∧ (s.start i).session.generators.length = s.generators.length := by
  have hsession := openLog_session s i {}
  rw [start_eq, Reply.andThen]
  cases (s.openLog i {}).result with
  | error f =>
    rw [hsession]
    exact ⟨rfl, rfl, rfl, List.length_set⟩
  | ok a =>
    simp only [hsession, attach, withGenerator]
    exact ⟨trivial, trivial, trivial, by simp⟩

theorem run_error (h : (s.start i).result = .error f) (count : Option Int) (fuel : Nat) :
    s.run i count fuel = .some ⟨(s.start i).session, (s.start i).signals, .error f⟩ := by
  simp only [run, h]

theorem run_ok (h : (s.start i).result = .ok ()) (count : Option Int) (fuel : Nat) :
    s.run i count fuel = (issue count fuel (s.start i).session).map fun r =>
      ⟨r.session.finalize i, (s.start i).signals ++ r.signals, r.result.map fun _ => r.session.issued⟩ := by
  simp only [run, h]

/-- A run ends if the session is stopping, and if the calls that are missing are no more than the fuel. -/
theorem exists_run (h : s.stopping = true ∨ ∃ m : Int, count = .some m ∧ m ≤ ↑(s.issued.length + fuel)) :
    ∃ r, s.run i count fuel = .some r := by
  obtain ⟨hstopping, _, hissued, _⟩ := start_keeps s i
  cases hstart : (s.start i).result with
  | error f => exact ⟨_, run_error hstart count fuel⟩
  | ok a =>
    have hissue : ∃ r, issue count fuel (s.start i).session = .some r := by
      rcases h with hs | ⟨m, rfl, hm⟩
      · exact ⟨_, issue_done (isDone_of_stopping (hstopping.trans hs) count) fuel⟩
      · exact exists_issue (by rw [hissued]; exact hm)
    obtain ⟨r, hr⟩ := hissue
    rw [run_ok hstart, hr]
    exact ⟨_, rfl⟩

/-- The calls of a run, and what it leaves of its generator. -/
theorem run_issues {g : Generator} {r : Reply (List Call)} (hi : s.generators[i]? = .some g)
    (hstart : (s.start i).result = .ok ()) (hr : s.run i count fuel = .some r) :
    (∃ g' log, r.session.generators[i]? = .some g' ∧ ((s.start i).session.generator i).stage = .ready log ∧
        log.closed = false ∧ g'.stage = .stopped (.some { log with closed := true })) ∧
      ∃ new s', Issuing count (s.start i).session new s' ∧ r.session.issued = s.issued ++ new ∧
        ∀ m : Int, count = .some m → ∀ k < new.length, ↑(s.issued.length + k) < m := by
  obtain ⟨_, _, hissued, hlength⟩ := start_keeps s i
  obtain ⟨log, hready, hclosed⟩ := start_ready hi hstart
  rw [run_ok hstart] at hr
  obtain ⟨q, hq, rfl⟩ := Option.map_eq_some_iff.1 hr
  obtain ⟨new, s', hissuing, hended⟩ := issue_cases hq
  refine ⟨?_, new, s', hissuing, ?_, ?_⟩
  · have hsame : q.session.generators.length = s.generators.length :=
      (hended.length.trans hissuing.length).trans hlength
    have hlt : i < q.session.generators.length := hsame ▸ (List.getElem?_eq_some_iff.1 hi).1
    -- the calls have left the generator the log that it was got ready with
    have hstage : (q.session.generator i).stage = .ready log :=
      ((hended.stage i).trans (hissuing.stage i)).trans hready
    refine ⟨_, log, withGenerator_self (List.getElem?_eq_getElem hlt) _, hready, hclosed, ?_⟩
    rw [Generator.finalize, hstage]
    rfl
  · exact hended.issued.trans (by rw [hissuing.issued, hissued])
  · rintro m rfl k hk
    have hadmitted := hissuing.admitted k hk
    rwa [hissued] at hadmitted

/-- A run in a session that is stopping gets its generator ready, builds no call, and stops it. -/
theorem run_stopping {r : Reply (List Call)} (hs : s.stopping = true) (hstart : (s.start i).result = .ok ())
    (hr : s.run i count fuel = .some r) :
    r.session.built = s.built ∧ r.session.issued = s.issued ∧ r.result = .ok s.issued := by
  obtain ⟨hstopping, hbuilt, hissued, _⟩ := start_keeps s i
  rw [run_ok hstart, issue_done (isDone_of_stopping (hstopping.trans hs) count)] at hr
  cases hr
  exact ⟨hbuilt, hissued, congrArg Except.ok hissued⟩

/-- A run ends with the call during which a shutdown is asked for. -/
theorem run_asked {new : List Call} (hstart : (s.start i).result = .ok ())
    (hissuing : Issuing count (s.start i).session new s') (hopen : s'.isDone count = false)
    (hasked : s'.AskedNext) :
    (new.length < fuel → ∃ r, s.run i count fuel = .some r) ∧
      ∀ r, s.run i count fuel = .some r →
        r.session.issued = s.issued ++ new ++ s'.newCall.result.toOption.toList ∧
        r.result = s'.newCall.result.map fun c => s.issued ++ new ++ [c] := by
  refine ⟨?_, ?_⟩
  · intro hfuel
    obtain ⟨k, rfl⟩ := Nat.exists_eq_add_of_lt hfuel
    obtain ⟨q', hq', _⟩ := issue_asked hopen hasked k
    obtain ⟨q, hq⟩ := hissuing.before hq'
    rw [run_ok hstart, Nat.add_assoc, hq]
    exact ⟨_, rfl⟩
  · intro r hr
    rw [run_ok hstart] at hr
    obtain ⟨q, hq, rfl⟩ := Option.map_eq_some_iff.1 hr
    obtain ⟨fuel', q', hq', hsession, hresult⟩ := hissuing.rest hq
    obtain ⟨fuel', rfl⟩ : ∃ k, fuel' = k + 1 := by
      cases fuel' with
      | zero => cases (issue_zero hopen).symm.trans hq'
      | succ k => exact ⟨k, rfl⟩
    obtain ⟨last, hlast, hlastSession, hlastResult⟩ := issue_asked hopen hasked fuel'
    cases hq'.symm.trans hlast
    have hissued : q.session.issued = s.issued ++ new ++ s'.newCall.result.toOption.toList := by
      rw [← hsession, hlastSession, newCall_issued, hissuing.issued, (start_keeps s i).2.2.1]
    refine ⟨hissued, ?_⟩
    simp only [← hresult, hlastResult, hissued]
    cases s'.newCall.result <;> rfl

/-- **The life of a run.** If its generator cannot be got ready, the session is as it was. Otherwise the
generator is stopped in the end, whether the run has succeeded or failed, and the log that it was got ready
with is closed. The calls issued are those issued before and the new ones, each issued while there were
fewer than the count. If the session was stopping, no call is built. And if any handler asks for a shutdown
while a call is built, the run ends with that call, which is issued unless a handler fails. -/
theorem run_lifecycle {g : Generator} (hi : s.generators[i]? = .some g) (count : Option Int) (fuel : Nat) :
    (∀ f, (s.start i).result = .error f → ∃ r, s.run i count fuel = .some r ∧ r.result = .error f ∧ r.session = s) ∧
    ((s.stopping = true ∨ ∃ m : Int, count = .some m ∧ m ≤ ↑(s.issued.length + fuel)) →
      ∃ r, s.run i count fuel = .some r) ∧
    ((s.start i).result = .ok () →
      (∀ r, s.run i count fuel = .some r →
        (∃ g' log, r.session.generators[i]? = .some g' ∧ ((s.start i).session.generator i).stage = .ready log ∧
          log.closed = false ∧ g'.stage = .stopped (.some { log with closed := true })) ∧
        (∃ new s', Issuing count (s.start i).session new s' ∧ r.session.issued = s.issued ++ new ∧
          ∀ m : Int, count = .some m → ∀ k < new.length, ↑(s.issued.length + k) < m) ∧
        (s.stopping = true →
          r.session.built = s.built ∧ r.session.issued = s.issued ∧ r.result = .ok s.issued)) ∧
      ∀ new s', Issuing count (s.start i).session new s' → s'.isDone count = false → s'.AskedNext →
        (new.length < fuel → ∃ r, s.run i count fuel = .some r) ∧
        ∀ r, s.run i count fuel = .some r →
          (∀ c, s'.newCall.result = .ok c →
            r.session.issued = s.issued ++ new ++ [c] ∧ r.result = .ok (s.issued ++ new ++ [c])) ∧
          ∀ f, s'.newCall.result = .error f → r.session.issued = s.issued ++ new ∧ r.result = .error f) := by
  refine ⟨?_, exists_run, ?_⟩
  · intro f hf
    exact ⟨_, run_error hf count fuel, rfl, start_error hf⟩
  intro hstart
  refine ⟨?_, ?_⟩
  · intro r hr
    obtain ⟨hstopped, hcalls⟩ := run_issues hi hstart hr
    exact ⟨hstopped, hcalls, fun hs => run_stopping hs hstart hr⟩
  · intro new s' hissuing hopen hasked
    obtain ⟨hends, hlast⟩ := run_asked hstart hissuing hopen hasked
    refine ⟨hends, ?_⟩
    intro r hr
    obtain ⟨hissued, hresult⟩ := hlast r hr
    refine ⟨?_, ?_⟩
    · intro c hc
      rw [hc] at hissued hresult
      exact ⟨hissued, hresult⟩
    · intro f hf
      rw [hf] at hissued hresult
      exact ⟨hissued.trans (List.append_nil _), hresult⟩

/-- A session that has issued a call, with an observer that asks for a shutdown during the second. -/
def stoppedAtTwo : Session :=
  { twoRequests with
    handlers := [(newCallEvent, .observer ⟨"stop", fun _ => .none, fun c => c.id == 2⟩)]
    issued := [⟨1, .none, []⟩]
    built := 1 }

theorem run_lifecycle_stoppedAtTwo : ∃ r, stoppedAtTwo.run 0 (.some 7) 6 = .some r ∧
    r.result = .ok [⟨1, .none, []⟩, ⟨2, .some [47, 120], [[98], [97]]⟩] ∧
    ∃ g', r.session.generators[0]? = .some g' ∧
      g'.stage = .stopped (.some ⟨"log", [0, 97, 1, 47, 120, 0, 0, 47, 121], true⟩) := by
  have hstart : (stoppedAtTwo.start 0).result = .ok () := rfl
  have hcall : (stoppedAtTwo.start 0).session.newCall.result = .ok ⟨2, .some [47, 120], [[98], [97]]⟩ := by
    decide +kernel
  have hasked : (stoppedAtTwo.start 0).session.AskedNext := by
    change Asked _ _ _ [.observer _, .generator 0]
    exact .here rfl
  obtain ⟨_, hends, hrun⟩ := run_lifecycle (s := stoppedAtTwo) (i := 0) rfl (.some 7) 6
  obtain ⟨r, hr⟩ := hends (.inr ⟨7, rfl, by decide⟩)
  obtain ⟨hleft, hlast⟩ := hrun hstart
  obtain ⟨_, hshutdown⟩ := hlast [] _ (.none _) rfl hasked
  obtain ⟨⟨g', log, hg', hready, _, hclosed⟩, _⟩ := hleft r hr
  cases hready
  exact ⟨r, hr, ((hshutdown r hr).1 _ hcall).2, g', hg', hclosed⟩

end RequestLog.Session
