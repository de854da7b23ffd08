/-
Sessions that differ only in what they tell of. Each operation on a session
has the same result whatever its level is and whether or not its generators
tell of each target, and leaves sessions behind that again differ only so
(`Reply.Louder`). So no run of a session depends on the levels in force
(`play_levels`).
-/
import RequestLog.Proofs.Cycle
import RequestLog.Proofs.Readings

namespace RequestLog

theorem Level.admits_of_le {l l' n : Level} (hl : l'.rank ≤ l.rank) (h : l.admits n = true) : l'.admits n = true := by
  simp only [admits, decide_eq_true_eq] at h ⊢
  omega

namespace Notice

/-- A lower level shows all that a higher one does. -/
theorem shown_sublist {l l' : Level} {ns ns' : List Notice} (hl : l'.rank ≤ l.rank) (h : ns.Sublist ns') :
    (shown l ns).Sublist (shown l' ns') := by
  have hmore : (ns.filter (l.admits ·.level)).Sublist (ns.filter (l'.admits ·.level)) :=
    List.monotone_filter_right ns fun n => Level.admits_of_le hl
  exact (hmore.trans (h.filter _)).map text

/-- The level of errors shows no other notices. -/
theorem shown_error {ns : List Notice} (h : ∀ n ∈ ns, n.level ≠ .error) : shown .error ns = [] := by
  rw [shown, List.map_eq_nil_iff, List.filter_eq_nil_iff]
  intro n hn
  have hlevel := h n hn
  cases hn : n.level with
  | error => exact absurd hn hlevel
  | _ => decide

end Notice

theorem Escape.unescape_minor {raw : Bytes} {source : Text} :
    ∀ n ∈ (unescape raw source).notices, n.level ≠ .error := by
  intro n hn
  rw [unescape_warns n hn]
  nofun

/-! ## Generators -/

namespace Generator

/-- A generator that tells of each target if it did before or is to. -/
def tuned (v : Bool) (g : Generator) : Generator := { g with verbose := g.verbose || v }

/-- What comes of a request to a generator that is the same but tells of more. -/
structure Production.Louder (v : Bool) (p p' : Production) : Prop where
  generator : p'.generator = p.generator.tuned v
  wraps : p'.wraps = p.wraps
  result : p'.result = p.result
  notices : p.notices.Sublist p'.notices
  minor : ∀ n ∈ p'.notices, n.level ≠ .error

theorem Production.Louder.asks {v : Bool} {p p' : Production} (h : p.Louder v p') : p'.asks = p.asks := by
  rw [Production.asks, Production.asks, h.generator, h.wraps]
  rfl

/-- On a lower level no notice is left out that is made on a higher one. -/
theorem Production.Louder.told {v : Bool} {p p' : Production} (h : p.Louder v p') {l l' : Level}
    (hl : l'.rank ≤ l.rank) : (p.told l).Sublist (p'.told l') := by
  have hmore : (p.told l).Sublist (p.told l') := by
    refine List.monotone_filter_right p.notices ?_
    intro n hn
    rcases Bool.or_eq_true_iff.1 hn with hn | hn
    · exact Bool.or_eq_true_iff.2 (.inl hn)
    · exact Bool.or_eq_true_iff.2 (.inr (Level.admits_of_le hl hn))
  exact hmore.trans (h.notices.filter _)

theorem Production.Louder.told_minor {v : Bool} {p p' : Production} (h : p.Louder v p') (l : Level) :
    ∀ n ∈ p'.told l, n.level ≠ .error :=
  fun n hn => h.minor n (List.mem_filter.1 hn).1

theorem decodeHeader_minor (r : Record) : ∀ n ∈ (decodeHeader r).notices, n.level ≠ .error := by
  unfold decodeHeader
  split
  · nofun
  · intro n hn
    rcases List.mem_append.1 hn with hn | hn
    · exact Escape.unescape_minor n hn
    · obtain rfl := List.mem_singleton.1 hn
      nofun

theorem produce_tuned (v : Bool) (g : Generator) : g.produce.Louder v (g.tuned v).produce := by
  unfold produce
  have hstage : (g.tuned v).stage = g.stage := rfl
  rw [hstage]
  split
  · rename_i log _
    have hseek : Scan.seek log.content (g.tuned v).embedded (g.tuned v).cursor false =
        Scan.seek log.content g.embedded g.cursor false := rfl
    simp only [hseek]
    cases (Scan.seek log.content g.embedded g.cursor false).found with
    | none => exact ⟨rfl, rfl, rfl, List.Sublist.refl _, nofun⟩
    | some r =>
      refine ⟨rfl, rfl, rfl, ?_, ?_⟩
      · refine (List.Sublist.refl _).append ?_
        cases hverbose : g.verbose <;> simp [tuned, hverbose]
      · intro n hn
        rcases List.mem_append.1 hn with hn | hn
        · exact decodeHeader_minor r n hn
        · split at hn
          · obtain rfl := List.mem_singleton.1 hn
            nofun
          · cases hn
  · exact ⟨rfl, rfl, rfl, List.Sublist.refl _, nofun⟩

theorem openLog_tuned (v : Bool) (g : Generator) (t : Tree) (c : Change) :
    (g.tuned v).openLog t c = ((g.openLog t c).1.tuned v, (g.openLog t c).2) := by
  unfold openLog
  have hstage : (g.tuned v).stage = g.stage := rfl
  rw [hstage]
  split
  · have hpath : ((g.tuned v).apply c).path = (g.apply c).path := rfl
    rw [hpath]
    cases openPath t (g.apply c).path <;> rfl
  · rfl

end Generator

/-! ## Sessions -/

namespace Session

open Generator

variable {α : Type} {v : Bool} {down : Prop}

/-- A session on another level, with generators that may tell of more. -/
def tuned (v : Bool) (l : Level) (s : Session) : Session :=
  { s with generators := s.generators.map (Generator.tuned v), level := l }

/-- What comes of an operation on a session that is the same but on another level, with generators that
may tell of more. If that level is no higher, no less is told. -/
structure Reply.Louder (v : Bool) (down : Prop) (r r' : Reply α) : Prop where
  session : ∃ l, (down → l.rank ≤ r.session.level.rank) ∧ r'.session = r.session.tuned v l
  result : r'.result = r.result
  signals : down → r.signals.Sublist r'.signals
  minor : ∀ n, .notice n ∈ r'.signals → n.level ≠ .error

/-- What is done without a word of it. -/
theorem Reply.louder_silent (s : Session) {l : Level} (hl : down → l.rank ≤ s.level.rank)
    (result : Except Failure α) : Reply.Louder v down ⟨s, [], result⟩ ⟨s.tuned v l, [], result⟩ :=
  ⟨⟨l, hl, rfl⟩, rfl, fun _ => List.Sublist.refl _, nofun⟩

theorem generator_tuned (s : Session) (l : Level) {i : Nat} (hi : i < s.generators.length) :
    (s.tuned v l).generator i = (s.generator i).tuned v := by
  simp [generator, tuned, hi]

/-- Where there is no generator, nothing comes of a change to it. -/
theorem withGenerator_of_le {s : Session} {i : Nat} (hi : s.generators.length ≤ i) (g : Generator) :
    s.withGenerator i g = s := by
  simp [withGenerator, List.set_eq_of_length_le hi]

theorem generator_of_le {s : Session} {i : Nat} (hi : s.generators.length ≤ i) : s.generator i = {} := by
  simp [generator, hi]

/-- A change to a generator that does not depend on what the generator tells of. -/
theorem withGenerator_tuned (s : Session) (l : Level) (i : Nat) {f : Generator → Generator}
    (hf : ∀ g, f (g.tuned v) = (f g).tuned v) :
    (s.tuned v l).withGenerator i (f ((s.tuned v l).generator i)) =
      (s.withGenerator i (f (s.generator i))).tuned v l := by
  by_cases hi : i < s.generators.length
  · rw [generator_tuned s l hi, hf]
    simp [withGenerator, tuned, List.map_set]
  · have hle := Nat.le_of_not_lt hi
    have hle' : (s.tuned v l).generators.length ≤ i := by simpa [tuned] using hle
    rw [withGenerator_of_le hle, withGenerator_of_le hle']

/-- What is told of a request for shutdown is no notice. -/
theorem mem_notices {ps : List Signal} {ns : List Notice} (hps : ∀ n, .notice n ∉ ps) {n : Notice}
    (h : Signal.notice n ∈ ps ++ ns.map .notice) : n ∈ ns := by
  rcases List.mem_append.1 h with h | h
  · exact absurd h (hps n)
  · obtain ⟨_, hn, heq⟩ := List.mem_map.1 h
    cases heq
    exact hn

theorem produce_louder (s : Session) {l : Level} (hl : down → l.rank ≤ s.level.rank) (i : Nat) :
    (s.produce i).Louder v down ((s.tuned v l).produce i) := by
  by_cases hi : i < s.generators.length
  · have h := produce_tuned v (s.generator i)
    have hsession := withGenerator_tuned (v := v) s l i (f := fun g => g.produce.generator)
      fun g => (produce_tuned v g).generator
    have hlistener : ((s.generator i).tuned v).listener = (s.generator i).listener := rfl
    simp only [generator_tuned s l hi] at hsession
    simp only [Session.produce, generator_tuned s l hi, h.asks, h.result, hlistener, hsession]
    refine ⟨⟨l, hl, rfl⟩, rfl, fun hdown => (List.Sublist.refl _).append ((h.told (hl hdown)).map _), ?_⟩
    intro n hn
    refine h.told_minor l n (mem_notices ?_ hn)
    intro n hn
    split at hn
    · cases List.eq_of_mem_replicate hn
    · cases hn
  · have hle := Nat.le_of_not_lt hi
    have hle' : (s.tuned v l).generators.length ≤ i := by simpa [tuned] using hle
    simp only [Session.produce, withGenerator_of_le hle, withGenerator_of_le hle', generator_of_le hle,
      generator_of_le hle']
    exact ⟨⟨l, hl, rfl⟩, rfl, fun _ => List.Sublist.refl _, nofun⟩

/-- The same made of two results. -/
theorem Reply.Louder.map {β : Type} {r r' : Reply α} (h : r.Louder v down r') (f : α → β) :
    Reply.Louder v down (⟨r.session, r.signals, r.result.map f⟩ : Reply β) ⟨r'.session, r'.signals, r'.result.map f⟩ :=
  ⟨h.session, congrArg (Except.map f) h.result, h.signals, h.minor⟩

theorem handle_louder (s : Session) {l : Level} (hl : down → l.rank ≤ s.level.rank) (event : Text) (c : Call)
    (h : Handler) : (s.handle event c h).Louder v down ((s.tuned v l).handle event c h) := by
  cases h with
  | generator i => exact (produce_louder s hl i).map (fill c)
  | observer o =>
    exact ⟨⟨l, hl, rfl⟩, rfl, fun _ => List.Sublist.refl _, fun n hn => by cases List.mem_singleton.1 hn⟩

/-- One operation after another, unless the first fails. -/
def Reply.andThen {β : Type} (r : Reply α) (next : Session → α → Reply β) : Reply β :=
  match r.result with
  | .error f => ⟨r.session, r.signals, .error f⟩
  | .ok a => ⟨(next r.session a).session, r.signals ++ (next r.session a).signals, (next r.session a).result⟩

/-- What is told after what was told before. -/
theorem Reply.Louder.before {β : Type} {r r' : Reply α} (h : r.Louder v down r') {q q' : Reply β}
    (hq : q.Louder v down q') : Reply.Louder v down { q with signals := r.signals ++ q.signals }
      { q' with signals := r'.signals ++ q'.signals } := by
  refine ⟨hq.session, hq.result, fun hdown => (h.signals hdown).append (hq.signals hdown), ?_⟩
  intro n hn
  rcases List.mem_append.1 hn with hn | hn
  · exact h.minor n hn
  · exact hq.minor n hn

theorem Reply.Louder.andThen {β : Type} {r r' : Reply α} (h : r.Louder v down r') {next : Session → α → Reply β}
    (hnext : ∀ (s : Session) (l : Level) a, (down → l.rank ≤ s.level.rank) →
      (next s a).Louder v down (next (s.tuned v l) a)) : (r.andThen next).Louder v down (r'.andThen next) := by
  obtain ⟨l, hl, hsession⟩ := h.session
  unfold Reply.andThen
  rw [h.result, hsession]
  cases r.result with
  | error f => exact ⟨⟨l, hl, rfl⟩, rfl, h.signals, h.minor⟩
  | ok a => exact h.before (hnext r.session l a hl)

theorem handleAll_cons (s : Session) (event : Text) (c : Call) (h : Handler) (hs : List Handler) :
    s.handleAll event c (h :: hs) = (s.handle event c h).andThen fun s c => s.handleAll event c hs := by
  simp only [handleAll, Reply.andThen]
  cases (s.handle event c h).result <;> rfl

theorem handleAll_louder (s : Session) {l : Level} (hl : down → l.rank ≤ s.level.rank) (event : Text) (c : Call)
    (hs : List Handler) : (s.handleAll event c hs).Louder v down ((s.tuned v l).handleAll event c hs) := by
  induction hs generalizing s l c with
  | nil => exact Reply.louder_silent s hl (.ok c)
  | cons h hs ih =>
    rw [handleAll_cons, handleAll_cons]
    exact (handle_louder s hl event c h).andThen fun s l c hl => ih s hl c

theorem fire_louder (s : Session) {l : Level} (hl : down → l.rank ≤ s.level.rank) (event : Text) (c : Call) :
    (s.fire event c).Louder v down ((s.tuned v l).fire event c) :=
  handleAll_louder s hl event c (s.handlersOf event)

theorem newCall_eq (s : Session) :
    s.newCall = Reply.andThen
      (Session.fire { s with built := s.built + 1 } newCallEvent { id := ↑(s.built + 1), headers := s.extra })
      fun s c => ⟨{ s with issued := s.issued ++ [c] }, [], .ok c⟩ := by
  simp only [newCall, Reply.andThen, List.append_nil]
  generalize Session.fire _ _ _ = r
  cases r.result <;> rfl

theorem newCall_louder (s : Session) {l : Level} (hl : down → l.rank ≤ s.level.rank) :
    s.newCall.Louder v down (s.tuned v l).newCall := by
  rw [newCall_eq, newCall_eq]
  refine Reply.Louder.andThen (fire_louder { s with built := s.built + 1 } hl newCallEvent _) ?_
  intro s l c hl
  exact Reply.louder_silent { s with issued := s.issued ++ [c] } hl (.ok c)

theorem openLog_louder (s : Session) {l : Level} (hl : down → l.rank ≤ s.level.rank) (i : Nat) (c : Change) :
    (s.openLog i c).Louder v down ((s.tuned v l).openLog i c) := by
  have hsession := withGenerator_tuned (v := v) s l i (f := fun g => (g.openLog s.tree c).1)
    fun g => congrArg Prod.fst (openLog_tuned v g s.tree c)
  have hresult : (((s.tuned v l).generator i).openLog s.tree c).2 = ((s.generator i).openLog s.tree c).2 := by
    by_cases hi : i < s.generators.length
    · rw [generator_tuned s l hi, openLog_tuned]
    · have hle := Nat.le_of_not_lt hi
      rw [generator_of_le hle, generator_of_le (by simpa [tuned] using hle)]
  have htree : (s.tuned v l).tree = s.tree := rfl
  have hnotice : ∀ {n}, ((s.generator i).openLog s.tree c).2 = .ok n → n.level ≠ .error := by
    intro n h
    unfold Generator.openLog at h
    split at h
    · split at h
      · cases h
      · cases h
        nofun
    · cases h
  simp only [Session.openLog, htree, hresult, hsession]
  cases hopen : ((s.generator i).openLog s.tree c).2 with
  | error f => exact ⟨⟨l, hl, rfl⟩, rfl, fun _ => List.Sublist.refl _, nofun⟩
  | ok n =>
    refine ⟨⟨l, hl, rfl⟩, rfl, fun _ => List.Sublist.refl _, ?_⟩
    intro m hm
    cases List.mem_singleton.1 hm
    exact hnotice hopen

theorem attach_tuned (s : Session) (l : Level) (i : Nat) : (s.tuned v l).attach i = (s.attach i).tuned v l := by
  have hsession := withGenerator_tuned (v := v) s l i (f := fun g => { g with listener := .engine }) fun _ => rfl
  unfold attach
  simp only [hsession]
  rfl

theorem finalize_tuned (s : Session) (l : Level) (i : Nat) : (s.tuned v l).finalize i = (s.finalize i).tuned v l :=
  withGenerator_tuned s l i (f := Generator.finalize) fun _ => rfl

theorem start_eq (s : Session) (i : Nat) :
    s.start i = (s.openLog i {}).andThen fun s _ => ⟨s.attach i, [], .ok ()⟩ := by
  simp only [Session.start, Reply.andThen, List.append_nil]
  cases (s.openLog i {}).result <;> rfl

theorem start_louder (s : Session) {l : Level} (hl : down → l.rank ≤ s.level.rank) (i : Nat) :
    (s.start i).Louder v down ((s.tuned v l).start i) := by
  rw [start_eq, start_eq]
  refine (openLog_louder s hl i {}).andThen ?_
  intro s l _ hl
  rw [attach_tuned]
  exact Reply.louder_silent (s.attach i) hl (.ok ())

theorem rel_map {β β' γ γ' : Type} {R : β → β' → Prop} {R' : γ → γ' → Prop} {f : β → γ} {f' : β' → γ'}
    (hf : ∀ b b', R b b' → R' (f b) (f' b')) {q : Option β} {q' : Option β'} (h : Option.Rel R q q') :
    Option.Rel R' (q.map f) (q'.map f') := by
  cases h with
  | none => exact .none
  | some h => exact .some (hf _ _ h)

theorem issue_louder (s : Session) {l : Level} (hl : down → l.rank ≤ s.level.rank) (count : Option Int) (fuel : Nat) :
    Option.Rel (Reply.Louder v down) (issue count fuel s) (issue count fuel (s.tuned v l)) := by
  have hdone : ∀ (s : Session) l, (s.tuned v l).isDone count = s.isDone count := fun _ _ => rfl
  induction fuel generalizing s l with
  | zero =>
    rw [issue, issue, hdone]
    split
    · exact .some (Reply.louder_silent s hl (.ok ()))
    · exact .none
  | succ fuel ih =>
    have h := newCall_louder (v := v) s hl
    obtain ⟨l', hl', hsession⟩ := h.session
    rw [issue, issue, hdone]
    split
    · exact .some (Reply.louder_silent s hl (.ok ()))
    · simp only [h.result, hsession]
      cases s.newCall.result with
      | error f => exact .some ⟨⟨l', hl', rfl⟩, rfl, h.signals, h.minor⟩
      | ok c => exact rel_map (fun _ _ => h.before) (ih s.newCall.session hl')

theorem run_louder (s : Session) {l : Level} (hl : down → l.rank ≤ s.level.rank) (i : Nat) (count : Option Int)
    (fuel : Nat) : Option.Rel (Reply.Louder v down) (s.run i count fuel) ((s.tuned v l).run i count fuel) := by
  have h := start_louder (v := v) s hl i
  obtain ⟨l', hl', hsession⟩ := h.session
  unfold Session.run
  simp only [h.result, hsession]
  cases (s.start i).result with
  | error f => exact .some ⟨⟨l', hl', rfl⟩, rfl, h.signals, h.minor⟩
  | ok _ =>
    refine rel_map ?_ (issue_louder (s.start i).session hl' count fuel)
    intro q q' hq
    obtain ⟨l, hlast, hfinal⟩ := hq.session
    refine ⟨⟨l, hlast, ?_⟩, ?_, (h.before hq).signals, (h.before hq).minor⟩
    · rw [hfinal, finalize_tuned]
    · rw [hq.result, hfinal]
      rfl

/-- **Each step comes to the same,** whatever is told of it. -/
theorem step_louder (s : Session) {l : Level} (hl : down → l.rank ≤ s.level.rank) (fuel : Nat) (st : Step) :
    Option.Rel (Reply.Louder v down) (s.step fuel st) ((s.tuned v l).step fuel st) := by
  cases st with
  | openLog i c => exact .some ((openLog_louder s hl i c).map fun _ => Answer.done)
  | produce i => exact .some ((produce_louder s hl i).map Answer.record)
  | finalize i =>
    simp only [step, finalize_tuned]
    exact .some (Reply.louder_silent (s.finalize i) hl (.ok Answer.done))
  | idle => exact .some (Reply.louder_silent s hl (.ok Answer.done))
  | attach i =>
    simp only [step, attach_tuned]
    exact .some (Reply.louder_silent (s.attach i) hl (.ok Answer.done))
  | start i => exact .some ((start_louder s hl i).map fun _ => Answer.done)
  | newCall => exact .some ((newCall_louder s hl).map Answer.call)
  | fire event id => exact .some ((fire_louder s hl event { id }).map Answer.call)
  | run i count => exact rel_map (fun _ _ h => h.map Answer.calls) (run_louder s hl i count fuel)
  | shutdown => exact .some (Reply.louder_silent { s with stopping := true } hl (.ok Answer.done))
  | observe event o =>
    exact .some (Reply.louder_silent { s with handlers := s.handlers ++ [(event, .observer o)] } hl (.ok Answer.done))
  | replace way content =>
    exact .some (Reply.louder_silent { s with tree := s.tree.add way (.file content) } hl (.ok Answer.done))
  | level name =>
    simp only [step]
    cases Level.chosen name with
    | error f => exact .some (Reply.louder_silent s hl (.error f))
    | ok l' => exact .some (Reply.louder_silent { s with level := l' } (fun _ => Nat.le_refl _) (.ok Answer.done))

/-! ## Runs on some levels -/

/-- A session after some steps, each taken on a level of its own, and their results. There is nothing
after a step that does not end. -/
def play (fuel : Nat) : Session → List (Level × Step) → Option (Session × List (Except Failure Answer))
  | s, [] => .some (s, [])
  | s, (l, st) :: plan =>
    match step fuel { s with level := l } st with
    | .none => .none
    | .some r => (play fuel r.session plan).map fun p => (p.1, r.result :: p.2)

theorem tuned_false (s : Session) (l : Level) : s.tuned false l = { s with level := l } := by
  have hgenerators : s.generators.map (Generator.tuned false) = s.generators := by
    refine (List.map_congr_left ?_).trans (List.map_id _)
    intro g _
    simp [Generator.tuned]
  simp only [tuned, hgenerators]

/-- Whatever the levels in force, a session has the same results, and it ends in the same way but for
its level. -/
theorem play_levels {fuel : Nat} {plan plan' : List (Level × Step)} (h : plan.map Prod.snd = plan'.map Prod.snd)
    (s : Session) (l : Level) :
    Option.Rel (fun p p' => (∃ l, p'.1 = { p.1 with level := l }) ∧ p'.2 = p.2) (play fuel s plan)
      (play fuel { s with level := l } plan') := by
  induction plan generalizing plan' s l with
  | nil =>
    obtain rfl : plan' = [] := by simpa using h.symm
    exact .some ⟨⟨l, rfl⟩, rfl⟩
  | cons entry plan ih =>
    obtain ⟨entry', plan', rfl, hstep, hplan⟩ := List.map_eq_cons_iff.1 h.symm
    obtain ⟨lv, st⟩ := entry
    obtain ⟨lv', st'⟩ := entry'
    obtain rfl : st' = st := hstep
    have h : Option.Rel (Reply.Louder false False) _ _ :=
      step_louder { s with level := lv } (l := lv') False.elim fuel st'
    rw [tuned_false] at h
    unfold play
    simp only
    generalize step fuel { s with level := lv } st' = r at h ⊢
    generalize step fuel { s with level := lv' } st' = r' at h ⊢
    cases h with
    | none => exact .none
    | some h =>
      obtain ⟨l, _, hsession⟩ := h.session
      rw [tuned_false] at hsession
      simp only [hsession, h.result]
      refine rel_map ?_ (ih hplan.symm _ l)
      rintro p p' ⟨hp, hresults⟩
      exact ⟨hp, by simp only [hresults]⟩

end Session

end RequestLog
