/-
Engines that differ in nothing but their own headers. The generators attached
to them answer the same, so whatever one engine does the other does too: it
shows the same signals, fails in the same way, or builds a call that is the
same but for the headers it begins with (`Call.Twin`). So are the calls of two
dry runs (`DryRun.run_twin`).
-/
import Mathlib.Data.List.Forall2
import RequestLog.Proofs.DryRuns
import RequestLog.Proofs.Levels

namespace RequestLog

/-- Calls of two engines that are the same but for the engines' own headers. -/
structure Call.Twin (extra extra' : List Bytes) (c c' : Call) : Prop where
  id : c'.id = c.id
  target : c'.target = c.target
  headers : ∃ added, c.headers = extra ++ added ∧ c'.headers = extra' ++ added

/-- The same failure twice, or two results that stand in a relation. -/
inductive Alike {α β : Type} (R : α → β → Prop) : Except Failure α → Except Failure β → Prop where
  | error (f : Failure) : Alike R (.error f) (.error f)
  | ok {a : α} {b : β} (h : R a b) : Alike R (.ok a) (.ok b)

theorem Alike.refl {α : Type} (x : Except Failure α) : Alike Eq x x := by
  cases x with
  | error f => exact .error f
  | ok a => exact .ok rfl

theorem Alike.cases {α β : Type} {R : α → β → Prop} {x : Except Failure α} {y : Except Failure β}
    (h : Alike R x y) : (∃ f, x = .error f ∧ y = .error f) ∨ ∃ a b, x = .ok a ∧ y = .ok b ∧ R a b := by
  cases h with
  | error f => exact .inl ⟨f, rfl, rfl⟩
  | ok h => exact .inr ⟨_, _, rfl, rfl, h⟩

theorem Alike.map {α β γ δ : Type} {R : α → β → Prop} {Q : γ → δ → Prop} {x : Except Failure α}
    {y : Except Failure β} (h : Alike R x y) {f : α → γ} {g : β → δ} (hfg : ∀ a b, R a b → Q (f a) (g b)) :
    Alike Q (x.map f) (y.map g) := by
  cases h with
  | error e => exact .error e
  | ok h => exact .ok (hfg _ _ h)

namespace Session

/-- Engines that are the same but for their own headers, and for those headers in the calls they have
issued. Only generators are attached to them. -/
structure Twin (extra extra' : List Bytes) (s s' : Session) : Prop where
  own : s.extra = extra
  same : ∃ issued', s' = { s with extra := extra', issued := issued' } ∧
    List.Forall₂ (Call.Twin extra extra') s.issued issued'
  handlers : ∀ h ∈ s.handlers, ∃ i, h.2 = .generator i

/-- What comes of the same operation on two such engines. -/
structure Reply.Twin {α β : Type} (extra extra' : List Bytes) (R : α → β → Prop) (r : Reply α) (r' : Reply β) :
    Prop where
  session : r.session.Twin extra extra' r'.session
  signals : r'.signals = r.signals
  result : Alike R r.result r'.result

variable {α β γ δ : Type} {R : α → β → Prop} {Q : γ → δ → Prop} {extra extra' : List Bytes} {s s' : Session}
  {c c' : Call}

/-! ## Operations one after the other -/

theorem Reply.Twin.before {r : Reply α} {r' : Reply β} (h : Reply.Twin extra extra' R r r') {q : Reply γ}
    {q' : Reply δ} (hq : Reply.Twin extra extra' Q q q') :
    Reply.Twin extra extra' Q { q with signals := r.signals ++ q.signals }
      { q' with signals := r'.signals ++ q'.signals } :=
  ⟨hq.session, by rw [h.signals, hq.signals], hq.result⟩

theorem Reply.Twin.andThen {r : Reply α} {r' : Reply β} (h : Reply.Twin extra extra' R r r')
    {next : Session → α → Reply γ} {next' : Session → β → Reply δ}
    (hnext : ∀ s s' a b, s.Twin extra extra' s' → R a b → Reply.Twin extra extra' Q (next s a) (next' s' b)) :
    Reply.Twin extra extra' Q (r.andThen next) (r'.andThen next') := by
  obtain ⟨session, signals, result⟩ := r
  obtain ⟨session', signals', result'⟩ := r'
  obtain ⟨hsession, hsignals, hresult⟩ := h
  cases hresult with
  | error f => exact ⟨hsession, hsignals, .error f⟩
  | ok hab =>
    have hq := hnext _ _ _ _ hsession hab
    exact ⟨hq.session, congrArg₂ _ hsignals hq.signals, hq.result⟩

/-! ## Operations -/

theorem produce_twin (h : s.Twin extra extra' s') (i : Nat) :
    Reply.Twin extra extra' Eq (s.produce i) (s'.produce i) := by
  obtain ⟨hown, ⟨issued', rfl, hissued⟩, hhandlers⟩ := h
  exact ⟨⟨hown, ⟨issued', rfl, hissued⟩, hhandlers⟩, rfl, .refl _⟩

theorem fill_twin (h : c.Twin extra extra' c') (r : Record) : (fill c r).Twin extra extra' (fill c' r) := by
  obtain ⟨hid, _, added, hc, hc'⟩ := h
  obtain ⟨target, _ | header⟩ := r
  · exact ⟨hid, rfl, added, hc, hc'⟩
  · refine ⟨hid, rfl, added ++ [Call.portion header .none], ?_, ?_⟩
    · exact (congrArg (· ++ _) hc).trans (List.append_assoc ..)
    · exact (congrArg (· ++ _) hc').trans (List.append_assoc ..)

theorem handleAll_twin (h : s.Twin extra extra' s') (hc : c.Twin extra extra' c') (event : Text)
    {hs : List Handler} (hhandlers : ∀ h ∈ hs, ∃ i, h = .generator i) :
    Reply.Twin extra extra' (Call.Twin extra extra') (s.handleAll event c hs) (s'.handleAll event c' hs) := by
  induction hs generalizing s s' c c' with
  | nil => exact ⟨h, rfl, .ok hc⟩
  | cons handler hs ih =>
    obtain ⟨⟨i, rfl⟩, hrest⟩ := List.forall_mem_cons.1 hhandlers
    rw [handleAll_cons, handleAll_cons]
    have hproduce := produce_twin h i
    have hhandle : Reply.Twin extra extra' (Call.Twin extra extra') (s.handle event c (.generator i))
        (s'.handle event c' (.generator i)) :=
      ⟨hproduce.session, hproduce.signals, hproduce.result.map fun _ _ heq => heq ▸ fill_twin hc _⟩
    exact hhandle.andThen fun _ _ _ _ h hc => ih h hc hrest

theorem newCall_twin (h : s.Twin extra extra' s') :
    Reply.Twin extra extra' (Call.Twin extra extra') s.newCall s'.newCall := by
  obtain ⟨rfl, ⟨issued', rfl, hissued⟩, hhandlers⟩ := h
  rw [newCall_eq, newCall_eq]
  have hs : ∀ h ∈ s.handlersOf newCallEvent, ∃ i, h = .generator i := by
    simp only [handlersOf, List.mem_map, List.mem_filter]
    rintro _ ⟨h, ⟨hmem, _⟩, rfl⟩
    exact hhandlers h hmem
  have hbegun : Session.Twin s.extra extra' { s with built := s.built + 1 }
      { s with extra := extra', issued := issued', built := s.built + 1 } :=
    ⟨rfl, ⟨issued', rfl, hissued⟩, hhandlers⟩
  have hcall : Call.Twin s.extra extra' { id := ↑(s.built + 1), headers := s.extra }
      { id := ↑(s.built + 1), headers := extra' } :=
    ⟨rfl, rfl, [], (List.append_nil _).symm, (List.append_nil _).symm⟩
  refine Reply.Twin.andThen (handleAll_twin hbegun hcall newCallEvent hs) ?_
  rintro s s' c c' ⟨hown, ⟨issued', rfl, hissued⟩, hhandlers⟩ hc
  exact ⟨⟨hown, ⟨issued' ++ [c'], rfl, List.rel_append hissued (.cons hc .nil)⟩, hhandlers⟩, rfl, .ok hc⟩

theorem openLog_twin (h : s.Twin extra extra' s') (i : Nat) (change : Generator.Change) :
    Reply.Twin extra extra' Eq (s.openLog i change) (s'.openLog i change) := by
  obtain ⟨hown, ⟨issued', rfl, hissued⟩, hhandlers⟩ := h
  have hgenerator : Session.generator { s with extra := extra', issued := issued' } i = s.generator i := rfl
  simp only [Session.openLog, hgenerator]
  rcases (s.generator i).openLog s.tree change with ⟨g, f | n⟩
  · exact ⟨⟨hown, ⟨issued', rfl, hissued⟩, hhandlers⟩, rfl, .error f⟩
  · exact ⟨⟨hown, ⟨issued', rfl, hissued⟩, hhandlers⟩, rfl, .ok rfl⟩

theorem attach_twin (h : s.Twin extra extra' s') (i : Nat) : (s.attach i).Twin extra extra' (s'.attach i) := by
  obtain ⟨hown, ⟨issued', rfl, hissued⟩, hhandlers⟩ := h
  refine ⟨hown, ⟨issued', rfl, hissued⟩, ?_⟩
  intro h hmem
  rcases List.mem_append.1 hmem with hmem | hmem
  · exact hhandlers h hmem
  · rw [List.mem_singleton.1 hmem]
    exact ⟨i, rfl⟩

theorem start_twin (h : s.Twin extra extra' s') (i : Nat) : Reply.Twin extra extra' Eq (s.start i) (s'.start i) := by
  rw [start_eq, start_eq]
  exact (openLog_twin h i {}).andThen fun _ _ _ _ h _ => ⟨attach_twin h i, rfl, .ok rfl⟩

theorem finalize_twin (h : s.Twin extra extra' s') (i : Nat) : (s.finalize i).Twin extra extra' (s'.finalize i) := by
  obtain ⟨hown, ⟨issued', rfl, hissued⟩, hhandlers⟩ := h
  exact ⟨hown, ⟨issued', rfl, hissued⟩, hhandlers⟩

/-- Such engines are done at the same time: they have issued as many calls. -/
theorem isDone_twin (h : s.Twin extra extra' s') (count : Option Int) : s'.isDone count = s.isDone count := by
  obtain ⟨_, ⟨issued', rfl, hissued⟩, _⟩ := h
  simp only [isDone, hissued.length_eq]

theorem issue_twin (h : s.Twin extra extra' s') (count : Option Int) (fuel : Nat) :
    Option.Rel (Reply.Twin extra extra' Eq) (issue count fuel s) (issue count fuel s') := by
  induction fuel generalizing s s' with
  | zero =>
    rw [issue, issue, isDone_twin h]
    split
    · exact .some ⟨h, rfl, .ok rfl⟩
    · exact .none
  | succ fuel ih =>
    rw [issue, issue, isDone_twin h]
    split
    · exact .some ⟨h, rfl, .ok rfl⟩
    · have hcall := newCall_twin h
      rcases hcall.result.cases with ⟨f, hf, hf'⟩ | ⟨c, c', hc, hc', _⟩
      · simp only [hf, hf']
        exact .some ⟨hcall.session, hcall.signals, .error f⟩
      · simp only [hc, hc']
        exact rel_map (fun _ _ => hcall.before) (ih hcall.session)

/-- **A run of such engines issues the same calls** but for the engines' own headers. -/
theorem run_twin (h : s.Twin extra extra' s') (i : Nat) (count : Option Int) (fuel : Nat) :
    Option.Rel (Reply.Twin extra extra' (List.Forall₂ (Call.Twin extra extra'))) (s.run i count fuel)
      (s'.run i count fuel) := by
  have hstart := start_twin h i
  unfold Session.run
  rcases hstart.result.cases with ⟨f, hf, hf'⟩ | ⟨_, _, hok, hok', _⟩
  · simp only [hf, hf']
    exact .some ⟨hstart.session, hstart.signals, .error f⟩
  · simp only [hok, hok']
    refine rel_map ?_ (issue_twin hstart.session count fuel)
    intro r r' hr
    obtain ⟨_, hsame, hissued⟩ := hr.session.same
    have hcalls : List.Forall₂ (Call.Twin extra extra') r.session.issued r'.session.issued := by
      rw [hsame]
      exact hissued
    have hfinal : Reply.Twin extra extra' (List.Forall₂ (Call.Twin extra extra'))
        ⟨r.session.finalize i, r.signals, r.result.map fun _ => r.session.issued⟩
        ⟨r'.session.finalize i, r'.signals, r'.result.map fun _ => r'.session.issued⟩ :=
      ⟨finalize_twin hr.session i, hr.signals, hr.result.map fun _ _ _ => hcalls⟩
    exact hstart.before hfinal

end Session

/-- **A dry run makes the same calls whatever the headers that every call gets,** but for those. -/
theorem DryRun.run_twin (t : Tree) (level : Level) (s : Config.Settings) (extra extra' : List Bytes) :
    Option.Rel (Session.Reply.Twin extra extra' (List.Forall₂ (Call.Twin extra extra')))
      (DryRun.run t level s extra) (DryRun.run t level s extra') := by
  have hengines : (engine t level s extra).Twin extra extra' (engine t level s extra') :=
    ⟨rfl, ⟨[], rfl, .nil⟩, fun _ h => absurd h List.not_mem_nil⟩
  rw [run_eq, run_eq]
  exact Session.run_twin hengines 0 _ _

/-- The level makes no difference to what a dry run comes to. -/
theorem DryRun.result_level (t : Tree) (level level' : Level) (s : Config.Settings) (extra : List Bytes) :
    (DryRun.run t level s extra).map Session.Reply.result = (DryRun.run t level' s extra).map Session.Reply.result := by
  have hlevels : Option.Rel (Session.Reply.Louder false False) _ _ :=
    Session.run_louder (engine t level s extra) (l := level') False.elim 0 (s.numCalls.map Int.ofNat) (enough t s)
  have hengine : { engine t level s extra with level := level' } = engine t level' s extra := rfl
  rw [Session.tuned_false, hengine, ← run_eq, ← run_eq] at hlevels
  generalize DryRun.run t level s extra = r, DryRun.run t level' s extra = r' at hlevels
  cases hlevels with
  | none => rfl
  | some h => exact congrArg Option.some h.result.symm

end RequestLog
