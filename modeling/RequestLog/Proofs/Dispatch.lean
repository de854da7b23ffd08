/-
Calls that pass through several generators. Each attachment takes its turn in
the order of attachment, and a generator that is attached more than once goes
on from where its last turn left it (`turns`); the first turn that fails ends
the call (`newCall_turns`). Steps attach handlers behind those that are there
and take none away (`step_handlers`). So a generator that is stopped fails every
call from then on (`Frozen`).
-/
import RequestLog.Proofs.Admission
import RequestLog.Proofs.Lifecycle

namespace RequestLog

namespace Generator

theorem after_add (g : Generator) (k n : Nat) : (g.after k).after n = g.after (k + n) := by
  induction n with
  | zero => rfl
  | succ n ih =>
    rw [after, ih]
    rfl

/-- A generator that is stopped has no record to give. -/
theorem produce_stopped {g : Generator} {last : Option LogFile} (h : g.stage = .stopped last) :
    g.produce.result = .error (.wrongStage .produce "stopped") := by
  have hrefused := produce_refused (g := g) fun log hready => nomatch h.symm.trans hready
  rw [hrefused, h]
  rfl

theorem openLog_stopped {g : Generator} {last : Option LogFile} (h : g.stage = .stopped last) (t : Tree)
    (c : Change) : (g.openLog t c).1.stage = .stopped last := by
  rw [openLog_refused (h ▸ nofun)]
  exact h

end Generator

namespace Session

open Generator

variable {s s' : Session} {event : Text} {c : Call} {is : List Nat} {i j fuel : Nat} {st : Step} {f : Failure}

/-! ## Turns -/

/-- What generators give in turn: one that comes again goes on from where it was. -/
def turns (s : Session) (is : List Nat) : List (Except Failure Record) :=
  is.mapIdx fun k i => ((s.generator i).after ((is.take k).count i)).produce.result

/-- A turn takes its own generator on, and no other. -/
theorem produce_turn (s : Session) (i j : Nat) :
    (s.produce i).session.generator j = (s.generator j).after ([i].count j) := by
  change (s.withGenerator i (s.generator i).produce.generator).generator j = _
  rw [generator_withGenerator, List.count_singleton]
  by_cases hj : j = i
  · subst hj
    by_cases hlt : j < s.generators.length
    · simp [hlt, after]
    · -- there is no such generator, and one as it is made gives nothing
      simp only [hlt, and_false, if_false, beq_self_eq_true, if_true, generator_of_le (Nat.le_of_not_lt hlt)]
      rfl
  · simp [hj, Ne.symm hj, after]

theorem turns_cons (s : Session) (i : Nat) (is : List Nat) :
    s.turns (i :: is) = (s.generator i).produce.result :: (s.produce i).session.turns is := by
  have hrest : ∀ k j, ((s.produce i).session.generator j).after ((is.take k).count j) =
      (s.generator j).after (((i :: is).take (k + 1)).count j) := by
    intro k j
    rw [produce_turn, after_add, List.take_succ_cons, ← List.count_append, List.singleton_append]
  simp only [turns, List.mapIdx_cons, hrest]
  rfl

/-- A call that has been filled from records has the headers of all and the target of the last. -/
theorem foldl_fill (c : Call) (rs : List Record) :
    rs.foldl fill c = { c with
      target := (rs.getLast?.map Record.target).or c.target
      headers := c.headers ++ rs.filterMap Record.header } := by
  induction rs generalizing c with
  | nil => simp
  | cons r rs ih =>
    have hfill : fill c r = { c with target := .some r.target, headers := c.headers ++ r.header.toList } := by
      obtain ⟨target, _ | h⟩ := r <;> simp [fill, Call.setTarget, Call.appendHeader, Call.portion, Bytes.slice]
    rw [List.foldl_cons, ih, hfill]
    obtain ⟨target, _ | h⟩ := r <;> cases hlast : rs.getLast? <;> simp [List.getLast?_cons, hlast]

/-- A call passes through generators in turn up to the first that fails. -/
theorem handleAll_turns (s : Session) (event : Text) (c : Call) (is : List Nat) :
    let r := s.handleAll event c (is.map .generator)
    (∃ rs : List Record, s.turns is = rs.map .ok ∧ r.result = .ok (rs.foldl fill c) ∧
      ∀ j, r.session.generator j = (s.generator j).after (is.count j)) ∨
    ∃ (rs : List Record) (f : Failure) (rest : List (Except Failure Record)),
      s.turns is = rs.map .ok ++ .error f :: rest ∧ r.result = .error f ∧
      ∀ j, r.session.generator j = (s.generator j).after ((is.take (rs.length + 1)).count j) := by
  induction is generalizing s c with
  | nil => exact .inl ⟨[], rfl, rfl, fun _ => rfl⟩
  | cons i is ih =>
    have hsession : (s.handle event c (.generator i)).session = (s.produce i).session := rfl
    have hresult : (s.handle event c (.generator i)).result = (s.generator i).produce.result.map (fill c) := rfl
    simp only [List.map_cons, handleAll_cons, Reply.andThen, hresult, turns_cons]
    cases hturn : (s.generator i).produce.result with
    | error f =>
      refine .inr ⟨[], f, (s.produce i).session.turns is, rfl, rfl, ?_⟩
      intro j
      exact hsession ▸ produce_turn s i j
    | ok r =>
      -- the turns of the rest begin where this one has left the generators
      have hrest : ∀ js j, ((s.produce i).session.generator j).after (js.count j) =
          (s.generator j).after ((i :: js).count j) := by
        intro js j
        rw [produce_turn, after_add, ← List.count_append, List.singleton_append]
      rcases ih (s.produce i).session (fill c r) with ⟨rs, hturns, hfilled, hgens⟩ | ⟨rs, f, rest, hturns, hfailed, hgens⟩
      · exact .inl ⟨r :: rs, by rw [hturns]; rfl, hfilled, fun j => (hgens j).trans (hrest is j)⟩
      · exact .inr ⟨r :: rs, f, rest, by rw [hturns]; rfl, hfailed, fun j => (hgens j).trans (hrest _ j)⟩

/-! ## What a call leaves -/

/-- Handlers reach nothing but generators and the request to stop. -/
theorem handleAll_session (s : Session) (event : Text) (c : Call) (hs : List Handler) :
    ∃ gs b, (s.handleAll event c hs).session = { s with generators := gs, stopping := b } := by
  induction hs generalizing s c with
  | nil => exact ⟨s.generators, s.stopping, rfl⟩
  | cons h hs ih =>
    have hone : ∃ gs b, (s.handle event c h).session = { s with generators := gs, stopping := b } := by
      cases h with
      | generator i => exact ⟨_, _, rfl⟩
      | observer o => exact ⟨s.generators, _, rfl⟩
    obtain ⟨gs, b, hone⟩ := hone
    rw [handleAll_cons, Reply.andThen]
    cases (s.handle event c h).result with
    | error f => exact ⟨gs, b, hone⟩
    | ok c' =>
      obtain ⟨gs', b', hrest⟩ := ih (s.handle event c h).session c'
      exact ⟨gs', b', by rw [hrest, hone]⟩

/-- A call uses up its number. -/
theorem newCall_session (s : Session) : ∃ gs b calls,
    s.newCall.session = { s with generators := gs, stopping := b, built := s.built + 1, issued := calls } := by
  have hfire := handleAll_session { s with built := s.built + 1 } newCallEvent
    { id := ↑(s.built + 1), headers := s.extra } (s.handlersOf newCallEvent)
  change ∃ gs b, (Session.fire { s with built := s.built + 1 } newCallEvent
    { id := ↑(s.built + 1), headers := s.extra }).session = _ at hfire
  rw [newCall_eq, Reply.andThen]
  generalize Session.fire _ _ _ = r at hfire
  obtain ⟨gs, b, hr⟩ := hfire
  cases r.result with
  | error f => exact ⟨gs, b, s.issued, hr⟩
  | ok c => exact ⟨gs, b, s.issued ++ [c], by rw [hr]⟩

theorem newCall_fire (s : Session) :
    let r := Session.fire { s with built := s.built + 1 } newCallEvent { id := ↑(s.built + 1), headers := s.extra }
    s.newCall.result = r.result ∧ ∀ j, s.newCall.session.generator j = r.session.generator j := by
  rw [newCall_eq, Reply.andThen]
  generalize Session.fire _ _ _ = r
  dsimp only
  cases r.result <;> exact ⟨rfl, fun _ => rfl⟩

/-- The call that comes of some records. -/
def callFrom (s : Session) (rs : List Record) : Call :=
  { id := ↑(s.built + 1), target := rs.getLast?.map Record.target, headers := s.extra ++ rs.filterMap Record.header }

/-- A call of an engine to which generators are attached, and nothing else. -/
theorem newCall_turns (h : s.handlersOf newCallEvent = is.map .generator) :
    (∃ rs : List Record, s.turns is = rs.map .ok ∧ s.newCall.result = .ok (s.callFrom rs) ∧
      ∀ j, s.newCall.session.generator j = (s.generator j).after (is.count j)) ∨
    ∃ (rs : List Record) (f : Failure) (rest : List (Except Failure Record)),
      s.turns is = rs.map .ok ++ .error f :: rest ∧ s.newCall.result = .error f ∧
      ∀ j, s.newCall.session.generator j = (s.generator j).after ((is.take (rs.length + 1)).count j) := by
  have hfire := handleAll_turns { s with built := s.built + 1 } newCallEvent
    { id := ↑(s.built + 1), headers := s.extra } is
  rw [← h] at hfire
  obtain ⟨hresult, hgenerator⟩ := newCall_fire s
  simp only [hresult, hgenerator]
  rcases hfire with ⟨rs, hturns, hfilled, hgens⟩ | hfailed
  · refine .inl ⟨rs, hturns, hfilled.trans ?_, hgens⟩
    rw [foldl_fill, callFrom, Option.or_none]
  · exact .inr hfailed

/-! ## Attachments -/

/-- The handlers that getting a generator ready attaches. -/
def started (s : Session) (i : Nat) : List (Text × Handler) :=
  match (s.start i).result with
  | .ok _ => [(newCallEvent, .generator i)]
  | .error _ => []

/-- The handlers that a step attaches. -/
def attachments (s : Session) : Step → List (Text × Handler)
  | .attach i => [(newCallEvent, .generator i)]
  | .start i | .run i _ => s.started i
  | .observe event o => [(event, .observer o)]
  | _ => []

theorem newCall_handlers (s : Session) : s.newCall.session.handlers = s.handlers := by
  obtain ⟨_, _, _, h⟩ := s.newCall_session
  rw [h]

theorem Issuing.handlers {count : Option Int} {calls : List Call} (h : Issuing count s calls s') :
    s'.handlers = s.handlers := by
  induction h with
  | none s => rfl
  | call _ _ _ ih => exact ih.trans (newCall_handlers _)

theorem Ended.handlers {count : Option Int} {result : Except Failure Unit} (h : Ended count s s' result) :
    s'.handlers = s.handlers := by
  cases h with
  | done => rfl
  | failed => exact newCall_handlers _

theorem start_handlers (s : Session) (i : Nat) : (s.start i).session.handlers = s.handlers ++ s.started i := by
  unfold started
  cases hstart : (s.start i).result with
  | error f => rw [start_error hstart, List.append_nil]
  | ok _ =>
    rw [start_ok hstart, attach, openLog_session]
    rfl

theorem run_handlers {count : Option Int} {r : Reply (List Call)} (hr : s.run i count fuel = .some r) :
    r.session.handlers = s.handlers ++ s.started i := by
  rw [← start_handlers]
  cases hstart : (s.start i).result with
  | error f =>
    rw [run_error hstart] at hr
    cases hr
    rfl
  | ok _ =>
    rw [run_ok hstart] at hr
    obtain ⟨q, hq, rfl⟩ := Option.map_eq_some_iff.1 hr
    obtain ⟨calls, s', hissuing, hended⟩ := issue_cases hq
    exact hended.handlers.trans hissuing.handlers

/-- Steps attach handlers behind those that are there, and take none away. -/
theorem step_handlers {r : Reply Answer} (hr : s.step fuel st = .some r) :
    r.session.handlers = s.handlers ++ s.attachments st := by
  cases st with
  | openLog i c =>
    cases hr
    exact (congrArg Session.handlers (openLog_session s i c)).trans (List.append_nil _).symm
  | produce i => cases hr; exact (List.append_nil _).symm
  | finalize i => cases hr; exact (List.append_nil _).symm
  | idle => cases hr; exact (List.append_nil _).symm
  | attach i => cases hr; rfl
  | start i => cases hr; exact start_handlers s i
  | newCall => cases hr; exact (newCall_handlers s).trans (List.append_nil _).symm
  | fire event id =>
    cases hr
    obtain ⟨_, _, h⟩ := handleAll_session s event { id } (s.handlersOf event)
    exact (congrArg Session.handlers h).trans (List.append_nil _).symm
  | run i count =>
    obtain ⟨r', hr', rfl⟩ := Option.map_eq_some_iff.1 hr
    exact run_handlers hr'
  | shutdown => cases hr; exact (List.append_nil _).symm
  | observe event o => cases hr; rfl
  | replace way content => cases hr; exact (List.append_nil _).symm
  | level name =>
    simp only [Session.step, Option.some.injEq] at hr
    subst hr
    rcases Level.chosen name with f | l <;> exact (List.append_nil _).symm

/-- The generators attached to a session to which nothing else has been attached for calls being built, in the
order in which steps have attached them. -/
inductive Attached : List Nat → Session → Prop
  | none {s : Session} (h : s.handlers = []) : Attached [] s
  | step {s : Session} {is : List Nat} {r : Reply Answer} (h : Attached is s) (fuel : Nat) (st : Step)
      (hr : s.step fuel st = .some r) (new : List Nat)
      (hnew : ((s.attachments st).filter (·.1 == newCallEvent)).map (·.2) = new.map .generator) :
      Attached (is ++ new) r.session

theorem Attached.handlersOf (h : Attached is s) : s.handlersOf newCallEvent = is.map .generator := by
  induction h with
  | none h => rw [Session.handlersOf, h]; rfl
  | step _ fuel st hr new hnew ih =>
    rw [Session.handlersOf, step_handlers hr, List.filter_append, List.map_append, hnew, List.map_append]
    exact congrArg (· ++ _) ih

/-! ## Generators that are stopped -/

/-- A generator that is attached and stopped. -/
structure Frozen (s : Session) (j : Nat) (last : Option LogFile) : Prop where
  attached : (newCallEvent, Handler.generator j) ∈ s.handlers
  stopped : (s.generator j).stage = .stopped last

variable {last : Option LogFile}

theorem withGenerator_stopped {g : Generator} (h : (s.generator j).stage = .stopped last)
    (hg : i = j → g.stage = .stopped last) : ((s.withGenerator i g).generator j).stage = .stopped last := by
  rw [generator_withGenerator]
  split
  · rename_i hj
    exact hg hj.1.symm
  · exact h

/-- A call fails at a generator that is stopped, unless it has failed before. -/
theorem handleAll_fails (h : (s.generator j).stage = .stopped last) {hs : List Handler}
    (hj : .generator j ∈ hs) (event : Text) (c : Call) : ∃ f, (s.handleAll event c hs).result = .error f := by
  induction hs generalizing s c with
  | nil => cases hj
  | cons handler hs ih =>
    rw [handleAll_cons, Reply.andThen]
    cases hone : (s.handle event c handler).result with
    | error f => exact ⟨f, rfl⟩
    | ok c' =>
      rcases List.mem_cons.1 hj with rfl | hj
      · have hfails : (s.handle event c (.generator j)).result = (s.generator j).produce.result.map (fill c) := rfl
        rw [hfails, produce_stopped h] at hone
        cases hone
      · exact ih (((handle_kept s event c handler).stage j).trans h) hj c'

theorem Frozen.newCall_error (h : s.Frozen j last) : ∃ f, s.newCall.result = .error f := by
  have hj : Handler.generator j ∈ s.handlersOf newCallEvent :=
    List.mem_map.2 ⟨_, List.mem_filter.2 ⟨h.attached, beq_self_eq_true _⟩, rfl⟩
  rw [(newCall_fire s).1]
  exact handleAll_fails (s := { s with built := s.built + 1 }) h.stopped hj _ _

theorem Frozen.newCall (h : s.Frozen j last) :
    s.newCall.session.Frozen j last ∧ s.newCall.session.issued = s.issued := by
  refine ⟨⟨newCall_handlers s ▸ h.attached, (newCall_stage s j).trans h.stopped⟩, ?_⟩
  obtain ⟨f, hf⟩ := h.newCall_error
  rw [newCall_issued, hf]
  exact List.append_nil _

theorem Frozen.openLog (h : s.Frozen j last) (i : Nat) (c : Change) :
    (s.openLog i c).session.Frozen j last ∧ (s.openLog i c).session.issued = s.issued := by
  rw [openLog_session]
  refine ⟨⟨h.attached, withGenerator_stopped h.stopped ?_⟩, rfl⟩
  rintro rfl
  exact openLog_stopped h.stopped s.tree c

theorem Frozen.attach (h : s.Frozen j last) (i : Nat) : (s.attach i).Frozen j last :=
  ⟨List.mem_append_left _ h.attached, (attach_stage s i j).trans h.stopped⟩

theorem Frozen.start (h : s.Frozen j last) (i : Nat) :
    (s.start i).session.Frozen j last ∧ (s.start i).session.issued = s.issued := by
  cases hstart : (s.start i).result with
  | error f =>
    rw [start_error hstart]
    exact ⟨h, rfl⟩
  | ok _ =>
    obtain ⟨hopened, hissued⟩ := h.openLog i {}
    rw [start_ok hstart]
    exact ⟨hopened.attach i, hissued⟩

theorem Frozen.finalize (h : s.Frozen j last) (i : Nat) : (s.finalize i).Frozen j last := by
  refine ⟨h.attached, withGenerator_stopped (i := i) h.stopped ?_⟩
  rintro rfl
  exact congrArg Stage.left h.stopped

theorem Frozen.ended {count : Option Int} {result : Except Failure Unit} (h : s.Frozen j last)
    (hended : Ended count s s' result) : s'.Frozen j last ∧ s'.issued = s.issued := by
  cases hended with
  | done => exact ⟨h, rfl⟩
  | failed => exact h.newCall

/-- A run in which every call fails issues none. -/
theorem Frozen.run {count : Option Int} {r : Reply (List Call)} (h : s.Frozen j last)
    (hr : s.run i count fuel = .some r) : r.session.Frozen j last ∧ r.session.issued = s.issued := by
  obtain ⟨hready, hsame⟩ := h.start i
  cases hstart : (s.start i).result with
  | error f =>
    rw [run_error hstart] at hr
    cases hr
    exact ⟨hready, hsame⟩
  | ok _ =>
    rw [run_ok hstart] at hr
    obtain ⟨q, hq, rfl⟩ := Option.map_eq_some_iff.1 hr
    obtain ⟨calls, s', hissuing, hended⟩ := issue_cases hq
    cases hissuing with
    | none =>
      obtain ⟨hlast, hissued⟩ := hready.ended hended
      exact ⟨hlast.finalize i, hissued.trans hsame⟩
    | call _ hcall =>
      obtain ⟨f, hf⟩ := hready.newCall_error
      cases hf.symm.trans hcall

/-- A generator that is attached and stopped stays so, and no step issues a call. -/
theorem Frozen.step {r : Reply Answer} (h : s.Frozen j last) (hr : s.step fuel st = .some r) :
    r.session.Frozen j last ∧ r.session.issued = s.issued := by
  cases st with
  | openLog i c => cases hr; exact h.openLog i c
  | produce i => cases hr; exact ⟨⟨h.attached, (stage_withGenerator (produce_stage _) j).trans h.stopped⟩, rfl⟩
  | finalize i => cases hr; exact ⟨h.finalize i, rfl⟩
  | idle => cases hr; exact ⟨h, rfl⟩
  | attach i => cases hr; exact ⟨h.attach i, rfl⟩
  | start i => cases hr; exact h.start i
  | newCall => cases hr; exact h.newCall
  | fire event id =>
    have hattached := step_handlers hr
    cases hr
    have hkept := handleAll_kept s event { id } (s.handlersOf event)
    exact ⟨⟨hattached ▸ List.mem_append_left _ h.attached, (hkept.stage j).trans h.stopped⟩, hkept.issued⟩
  | run i count =>
    obtain ⟨r', hr', rfl⟩ := Option.map_eq_some_iff.1 hr
    exact h.run hr'
  | shutdown => cases hr; exact ⟨⟨h.attached, h.stopped⟩, rfl⟩
  | observe event o => cases hr; exact ⟨⟨List.mem_append_left _ h.attached, h.stopped⟩, rfl⟩
  | replace way content => cases hr; exact ⟨⟨h.attached, h.stopped⟩, rfl⟩
  | level name =>
    simp only [Session.step, Option.some.injEq] at hr
    subst hr
    rcases Level.chosen name with f | l <;> exact ⟨⟨h.attached, h.stopped⟩, rfl⟩

theorem Frozen.before {opened : Nat → Option LogFile} {later : Moment} (h : s.Frozen j last)
    (hlater : Moment.Before ⟨s, opened⟩ later) : later.session.Frozen j last ∧ later.session.issued = s.issued := by
  induction hlater with
  | same => exact ⟨h, rfl⟩
  | step fuel st _ hr ih =>
    obtain ⟨hfrozen, hissued⟩ := ih
    obtain ⟨hfrozen', hissued'⟩ := hfrozen.step hr
    exact ⟨hfrozen', hissued'.trans hissued⟩

/-- Where every call fails, no step goes on for ever. -/
theorem Frozen.exists_step (h : s.Frozen j last) (fuel : Nat) (st : Step) : ∃ r, s.step (fuel + 1) st = .some r := by
  cases st with
  | run i count =>
    suffices ∃ r, s.run i count (fuel + 1) = .some r by
      obtain ⟨r, hr⟩ := this
      exact ⟨_, congrArg (Option.map _) hr⟩
    cases hstart : (s.start i).result with
    | error f => exact ⟨_, run_error hstart count _⟩
    | ok _ =>
      have hissue : ∃ r, issue count (fuel + 1) (s.start i).session = .some r := by
        cases hdone : (s.start i).session.isDone count with
        | true => exact ⟨_, issue_done hdone _⟩
        | false =>
          obtain ⟨f, hf⟩ := (h.start i).1.newCall_error
          exact ⟨_, issue_error hdone hf fuel⟩
      obtain ⟨r, hr⟩ := hissue
      exact ⟨_, (run_ok hstart count _).trans (congrArg (Option.map _) hr)⟩
  | _ => exact ⟨_, rfl⟩

/-- **A call passes through the generators attached to an engine, in the order of their attachment.** If all have
a record to give, the call is issued with the engine's own headers, then theirs in that order, and with the target
of the last; each generator has answered a request for each of its attachments. If one has none, the call fails, its
number is used up and it is not issued, and only the attachments up to that one have come to their turn. Once a
generator that is attached is stopped, no call is issued any more, whatever steps follow, and none of them goes on
for ever. -/
theorem calls_in_turn (h : Attached is s) :
    s.newCall.session.built = s.built + 1 ∧
    ((∃ rs : List Record, s.turns is = rs.map .ok ∧
        s.newCall.result = .ok ⟨↑(s.built + 1), rs.getLast?.map Record.target, s.extra ++ rs.filterMap Record.header⟩ ∧
        s.newCall.session.issued = s.issued ++
          [⟨↑(s.built + 1), rs.getLast?.map Record.target, s.extra ++ rs.filterMap Record.header⟩] ∧
        ∀ j, s.newCall.session.generator j = (s.generator j).after (is.count j)) ∨
      ∃ (rs : List Record) (f : Failure) (rest : List (Except Failure Record)),
        s.turns is = rs.map .ok ++ .error f :: rest ∧ s.newCall.result = .error f ∧
        s.newCall.session.issued = s.issued ∧
        ∀ j, s.newCall.session.generator j = (s.generator j).after ((is.take (rs.length + 1)).count j)) ∧
    ∀ i ∈ is, ∀ last, (s.generator i).stage = .stopped last → ∀ (opened : Nat → Option LogFile) (later : Moment),
      Moment.Before ⟨s, opened⟩ later →
        (∃ f, later.session.newCall.result = .error f) ∧ later.session.issued = s.issued ∧
          ∀ fuel st, ∃ r, later.session.step (fuel + 1) st = .some r := by
  have hhandlers := h.handlersOf
  have hissued := newCall_issued s
  refine ⟨?_, ?_, ?_⟩
  · obtain ⟨_, _, _, hsession⟩ := s.newCall_session
    rw [hsession]
  · rcases newCall_turns hhandlers with ⟨rs, hturns, hresult, hgens⟩ | ⟨rs, f, rest, hturns, hresult, hgens⟩
    · rw [hresult] at hissued
      exact .inl ⟨rs, hturns, hresult, hissued, hgens⟩
    · rw [hresult] at hissued
      exact .inr ⟨rs, f, rest, hturns, hresult, hissued.trans (List.append_nil _), hgens⟩
  · intro i hi last hstopped opened later hlater
    have hattached : Handler.generator i ∈ s.handlersOf newCallEvent := hhandlers ▸ List.mem_map_of_mem hi
    obtain ⟨⟨event, handler⟩, hmem, hhandler⟩ := List.mem_map.1 hattached
    obtain ⟨hmem, hevent⟩ := List.mem_filter.1 hmem
    obtain rfl : handler = .generator i := hhandler
    obtain rfl : event = newCallEvent := eq_of_beq hevent
    obtain ⟨hfrozen, hsame⟩ := Frozen.before ⟨hmem, hstopped⟩ hlater
    exact ⟨hfrozen.newCall_error, hsame, hfrozen.exists_step⟩

/-- A session with three generators on one log, of which the second takes headers for parts of targets. -/
def threeGenerators : Session :=
  { twoRequests with generators := [
      { path := .some "log", embedded := true }, { path := .some "log" }, { path := .some "log" }] }

/-- The session once the first two have their logs and are attached, the first of them twice. -/
def threeAttachments : Session :=
  ((((threeGenerators.openLog 0 {}).session.openLog 1 {}).session.attach 0).attach 1).attach 0

theorem attached_threeAttachments : Attached [0, 1, 0] threeAttachments := by
  have hnone : Attached [] threeGenerators := .none rfl
  have hopened := (hnone.step 0 (.openLog 0 {}) rfl [] rfl).step 0 (.openLog 1 {}) rfl [] rfl
  have hattached := (hopened.step 0 (.attach 0) rfl [0] rfl).step 0 (.attach 1) rfl [1] rfl
  exact hattached.step 0 (.attach 0) rfl [0] rfl

theorem turns_threeAttachments : threeAttachments.turns [0, 1, 0] =
    List.map .ok [⟨[47, 120], .some [97]⟩, ⟨[97, 1, 47, 120], .none⟩, ⟨[47, 121], .none⟩] := by
  decide +kernel

/-- They make a call of their records, and none once the second is stopped and the third is run. -/
theorem calls_in_turn_threeAttachments :
    threeAttachments.newCall.result = .ok ⟨1, .some [47, 121], [[98], [97]]⟩ ∧
    (threeAttachments.newCall.session.generator 0).cursor = 9 ∧
    ∃ r, (threeAttachments.finalize 1).step 1 (.run 2 .none) = .some r ∧ r.session.issued = [] ∧
      ∃ f, r.session.newCall.result = .error f := by
  obtain ⟨-, hcall, -⟩ := calls_in_turn attached_threeAttachments
  have hstopped : Attached [0, 1, 0] (threeAttachments.finalize 1) :=
    attached_threeAttachments.step 0 (.finalize 1) rfl [] rfl
  obtain ⟨-, -, hfrozen⟩ := calls_in_turn hstopped
  have hsame := hfrozen 1 (by simp) (.some ⟨"log", [0, 97, 1, 47, 120, 0, 0, 47, 121], true⟩) (by decide +kernel)
    fun _ => .none
  obtain ⟨r, hr⟩ := (hsame _ (.same _)).2.2 0 (.run 2 .none)
  obtain ⟨herror, hissued, -⟩ := hsame _ (.step 1 (.run 2 .none) (.same _) hr)
  rcases hcall with ⟨rs, hturns, hresult, -, hgens⟩ | ⟨rs, f, rest, hturns, -⟩
  · obtain rfl := (List.map_inj_right fun _ _ h => Except.ok.inj h).1 (turns_threeAttachments.symm.trans hturns)
    refine ⟨hresult, ?_, r, hr, hissued, herror⟩
    rw [hgens]
    decide +kernel
  · have hfails : .error f ∈ threeAttachments.turns [0, 1, 0] := hturns ▸ by simp
    rw [turns_threeAttachments] at hfails
    simp at hfails

end Session

end RequestLog
