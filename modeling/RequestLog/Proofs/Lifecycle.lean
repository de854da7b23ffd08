/-
What holds of a session after any steps, failed ones included. A session
passes on to its generators what their operations leave of them, and besides
only adds to its calls (`Sound`, `Onward`). One lemma for each operation, then
one for a step (`Sound.step`), and by induction one for all steps
(`session_invariant`).
-/
import RequestLog.Proofs.Issue
import RequestLog.Proofs.Stages

namespace RequestLog

namespace Session

open Generator

/-- What may become of a session: its generators go onward, its own headers stay, a request for
shutdown stays, and calls are only added. -/
structure Onward (s s' : Session) : Prop where
  generators : ∀ (i : Nat) (g : Generator), s.generators[i]? = .some g →
    ∃ g', s'.generators[i]? = .some g' ∧ g.Onward g'
  extra : s'.extra = s.extra
  stopping : s.stopping = true → s'.stopping = true
  issued : s.issued <+: s'.issued
  built : s.built ≤ s'.built

/-- What always holds of a session, and of the logs that its generators have opened so far. -/
structure Sound (s : Session) (opened : Nat → Option LogFile) : Prop where
  generators : ∀ (i : Nat) (g : Generator), s.generators[i]? = .some g → g.Sound (opened i)
  increasing : s.issued.Pairwise fun c c' => c.id < c'.id
  numbered : ∀ c ∈ s.issued, c.id ≤ s.built
  headed : ∀ c ∈ s.issued, s.extra <+: c.headers

theorem Onward.refl (s : Session) : s.Onward s where
  generators := fun _ g hi => ⟨g, hi, .refl g⟩
  extra := rfl
  stopping := id
  issued := List.prefix_rfl
  built := Nat.le_refl _

theorem Onward.trans {s s' s'' : Session} (h : s.Onward s') (h' : s'.Onward s'') : s.Onward s'' where
  generators := by
    intro i g hi
    obtain ⟨g', hi', hg⟩ := h.generators i g hi
    obtain ⟨g'', hi'', hg'⟩ := h'.generators i g' hi'
    exact ⟨g'', hi'', hg.trans hg'⟩
  extra := h'.extra.trans h.extra
  stopping := fun hs => h'.stopping (h.stopping hs)
  issued := h.issued.trans h'.issued
  built := Nat.le_trans h.built h'.built

/-- A session has become another, which is sound. -/
structure Becomes (s s' : Session) (opened : Nat → Option LogFile) : Prop where
  sound : s'.Sound opened
  onward : s.Onward s'

variable {s s' s'' : Session} {opened opened' : Nat → Option LogFile}

theorem Sound.refl (h : s.Sound opened) : s.Becomes s opened := ⟨h, .refl s⟩

theorem Becomes.trans (h : s.Becomes s' opened) (h' : s'.Becomes s'' opened') : s.Becomes s'' opened' :=
  ⟨h'.sound, h.onward.trans h'.onward⟩

/-- What else is attached, where files are, and what is shown make no difference. -/
theorem Becomes.withSettings (h : s.Becomes s' opened) (t : Tree) (hs : List (Text × Handler)) (l : Level) :
    s.Becomes { s' with tree := t, handlers := hs, level := l } opened :=
  ⟨⟨h.sound.generators, h.sound.increasing, h.sound.numbered, h.sound.headed⟩,
    ⟨h.onward.generators, h.onward.extra, h.onward.stopping, h.onward.issued, h.onward.built⟩⟩

theorem Becomes.stop (h : s.Becomes s' opened) (b : Bool) :
    s.Becomes { s' with stopping := s'.stopping || b } opened :=
  ⟨⟨h.sound.generators, h.sound.increasing, h.sound.numbered, h.sound.headed⟩,
    ⟨h.onward.generators, h.onward.extra, fun hs => by simp [h.onward.stopping hs], h.onward.issued,
      h.onward.built⟩⟩

/-- A generator that goes onward takes its session along. -/
theorem Sound.withGenerator {i : Nat} {g' : Generator} (h : s.Sound opened)
    (hg : ∀ g, s.generators[i]? = .some g → g'.Sound (opened' i) ∧ g.Onward g')
    (hothers : ∀ j, j ≠ i → opened' j = opened j) : s.Becomes (s.withGenerator i g') opened' := by
  have hget : ∀ j g, s.generators[j]? = .some g →
      (s.withGenerator i g').generators[j]? = .some (if j = i then g' else g) := by
    intro j g hj
    by_cases heq : j = i
    · subst heq
      rw [withGenerator_self hj, if_pos rfl]
    · rw [if_neg heq, ← hj]
      exact List.getElem?_set_ne (Ne.symm heq)
  refine ⟨⟨?_, h.increasing, h.numbered, h.headed⟩, ⟨?_, rfl, id, List.prefix_rfl, Nat.le_refl _⟩⟩
  · intro j g hj
    have hlt : j < s.generators.length := by
      simpa [Session.withGenerator] using (List.getElem?_eq_some_iff.1 hj).1
    have hold := List.getElem?_eq_getElem hlt
    rw [hget j _ hold, Option.some.injEq] at hj
    subst hj
    split
    · rename_i heq
      subst heq
      exact (hg _ hold).1
    · rename_i hne
      rw [hothers j hne]
      exact h.generators j _ hold
  · intro j g hj
    refine ⟨_, hget j g hj, ?_⟩
    split
    · rename_i heq
      subst heq
      exact (hg g hj).2
    · exact .refl g

/-! ## Operations -/

theorem Sound.produce (h : s.Sound opened) (i : Nat) : s.Becomes (s.produce i).session opened := by
  have hmoved : s.Becomes (s.withGenerator i (s.generator i).produce.generator) opened := by
    refine h.withGenerator ?_ fun _ _ => rfl
    intro g hi
    rw [generator_eq hi]
    exact (h.generators i g hi).produce
  exact hmoved.stop _

theorem Sound.finalize (h : s.Sound opened) (i : Nat) : s.Becomes (s.finalize i) opened := by
  refine h.withGenerator ?_ fun _ _ => rfl
  intro g hi
  rw [generator_eq hi]
  exact (h.generators i g hi).finalize

theorem Sound.attach (h : s.Sound opened) (i : Nat) : s.Becomes (s.attach i) opened := by
  have hmoved : s.Becomes (s.withGenerator i { s.generator i with listener := .engine }) opened := by
    refine h.withGenerator ?_ fun _ _ => rfl
    intro g hi
    rw [generator_eq hi]
    exact (h.generators i g hi).listen _
  exact hmoved.withSettings s.tree _ s.level

/-- The logs that generators have opened, after a request of one of them to open one. -/
def openedBy (s : Session) (opened : Nat → Option LogFile) (i : Nat) (c : Change) (j : Nat) : Option LogFile :=
  if j = i then (opened j).or ((s.generator j).opening s.tree c) else opened j

theorem Sound.openLog (h : s.Sound opened) (i : Nat) (c : Change) :
    s.Becomes (s.openLog i c).session (s.openedBy opened i c) := by
  have hsession : (s.openLog i c).session = s.withGenerator i ((s.generator i).openLog s.tree c).1 := by
    unfold Session.openLog
    split; split <;> simp_all
  rw [hsession]
  refine h.withGenerator ?_ fun j hne => if_neg hne
  intro g hi
  rw [openedBy, if_pos rfl, generator_eq hi]
  exact (h.generators i g hi).openLog s.tree c

theorem Sound.start (h : s.Sound opened) (i : Nat) :
    s.Becomes (s.start i).session (s.openedBy opened i {}) := by
  have hopen := h.openLog i {}
  unfold Session.start
  generalize s.openLog i {} = r at hopen
  obtain ⟨s', signals, f | _⟩ := r
  · exact hopen
  · exact hopen.trans (hopen.sound.attach i)

/-! ## Calls -/

/-- What handlers make of a session and a call: they issue and build none, and the call keeps its
number and the headers it had. -/
structure Handled (s : Session) (c : Call) (r : Reply Call) (opened : Nat → Option LogFile) : Prop where
  becomes : s.Becomes r.session opened
  issued : r.session.issued = s.issued
  built : r.session.built = s.built
  call : ∀ c', r.result = .ok c' → c'.id = c.id ∧ c.headers <+: c'.headers

variable {event : Text} {c : Call}

theorem fill_extends (c : Call) (r : Record) : (fill c r).id = c.id ∧ c.headers <+: (fill c r).headers := by
  obtain ⟨target, _ | header⟩ := r
  · exact ⟨rfl, List.prefix_rfl⟩
  · exact ⟨rfl, List.prefix_append ..⟩

theorem Sound.handle (h : s.Sound opened) (event : Text) (c : Call) (handler : Handler) :
    s.Handled c (s.handle event c handler) opened := by
  cases handler with
  | generator i =>
    refine ⟨h.produce i, rfl, rfl, ?_⟩
    intro c' hc'
    simp only [Session.handle] at hc'
    rcases hr : (s.produce i).result with f | r
    · rw [hr] at hc'; cases hc'
    · rw [hr] at hc'; cases hc'
      exact fill_extends c r
  | observer o =>
    refine ⟨h.refl.stop _, rfl, rfl, ?_⟩
    intro c' hc'
    simp only [Session.handle] at hc'
    cases hc'
    cases o.header c with
    | none => exact ⟨rfl, List.prefix_rfl⟩
    | some header => exact ⟨rfl, List.prefix_append ..⟩

theorem Sound.handleAll (h : s.Sound opened) (event : Text) (c : Call) (hs : List Handler) :
    s.Handled c (s.handleAll event c hs) opened := by
  -- each handler leaves another session and another call to those after it
  induction hs generalizing s c with
  | nil =>
    refine ⟨h.refl, rfl, rfl, ?_⟩
    intro c' hc'
    cases hc'
    exact ⟨rfl, List.prefix_rfl⟩
  | cons handler hs ih =>
    have hone := h.handle event c handler
    simp only [Session.handleAll]
    rcases hr : (s.handle event c handler).result with f | c₁
    · refine ⟨hone.becomes, hone.issued, hone.built, ?_⟩
      intro c' hc'
      cases hc'
    · have hrest := ih hone.becomes.sound (c := c₁)
      refine ⟨hone.becomes.trans hrest.becomes, hrest.issued.trans hone.issued, hrest.built.trans hone.built, ?_⟩
      intro c' hc'
      obtain ⟨hid, hheaders⟩ := hone.call c₁ hr
      obtain ⟨hid', hheaders'⟩ := hrest.call c' hc'
      exact ⟨hid'.trans hid, hheaders.trans hheaders'⟩

theorem Sound.build (h : s.Sound opened) : s.Becomes { s with built := s.built + 1 } opened := by
  refine ⟨⟨h.generators, h.increasing, ?_, h.headed⟩, ⟨(Onward.refl s).generators, rfl, id, List.prefix_rfl,
    Nat.le_succ _⟩⟩
  intro c hc
  have := h.numbered c hc
  simp only; omega

/-- A call that is issued has a number of its own. -/
theorem Sound.newCall (h : s.Sound opened) : s.Becomes s.newCall.session opened := by
  have hbuild := h.build
  have hfire := hbuild.sound.handleAll newCallEvent { id := ↑(s.built + 1), headers := s.extra }
    ({ s with built := s.built + 1 }.handlersOf newCallEvent)
  unfold Session.newCall
  simp only [fire]
  generalize { s with built := s.built + 1 }.handleAll _ _ _ = r at hfire
  have hbecomes := hbuild.trans hfire.becomes
  rcases hr : r.result with f | c
  · exact hbecomes
  · obtain ⟨hid, hheaders⟩ := hfire.call c hr
    have hsound := hbecomes.sound
    have hissued : r.session.issued = s.issued := hfire.issued
    have hextra : r.session.extra = s.extra := hbecomes.onward.extra
    have hbuilt : r.session.built = s.built + 1 := hfire.built
    simp only at hid hheaders
    refine ⟨⟨hsound.generators, ?_, ?_, ?_⟩, hbecomes.onward.generators, hbecomes.onward.extra,
      hbecomes.onward.stopping, hbecomes.onward.issued.trans (List.prefix_append ..), hbecomes.onward.built⟩
    · -- the calls issued so far have numbers up to that of the last one built before this one
      refine List.pairwise_append.2 ⟨hsound.increasing, List.pairwise_singleton .., ?_⟩
      intro c₁ hc₁ c₂ hc₂
      rw [List.mem_singleton.1 hc₂, hid]
      have := h.numbered c₁ (hissued ▸ hc₁)
      omega
    · intro c₁ hc₁
      rcases List.mem_append.1 hc₁ with hc₁ | hc₁
      · exact hsound.numbered c₁ hc₁
      · rw [List.mem_singleton.1 hc₁, hid]
        exact Int.le_of_eq (congrArg Int.ofNat hbuilt.symm)
    · intro c₁ hc₁
      rcases List.mem_append.1 hc₁ with hc₁ | hc₁
      · exact hsound.headed c₁ hc₁
      · rw [List.mem_singleton.1 hc₁]
        exact hextra ▸ hheaders

theorem Sound.issue {count : Option Int} {fuel : Nat} {r : Reply Unit} (h : s.Sound opened)
    (hr : Session.issue count fuel s = .some r) : s.Becomes r.session opened := by
  -- on the fuel: a call that succeeds leaves a sound session to issue the rest
  induction fuel generalizing s r with
  | zero =>
    simp only [Session.issue] at hr
    split at hr <;> cases hr
    exact h.refl
  | succ fuel ih =>
    have hcall := h.newCall
    simp only [Session.issue] at hr
    split at hr
    · cases hr
      exact h.refl
    · rcases hres : s.newCall.result with f | c
      · rw [hres] at hr
        cases hr
        exact hcall
      · rw [hres] at hr
        obtain ⟨r', hr', rfl⟩ := Option.map_eq_some_iff.1 hr
        exact hcall.trans (ih (r := r') hcall.sound hr')

theorem Sound.run {i : Nat} {count : Option Int} {fuel : Nat} {r : Reply (List Call)} (h : s.Sound opened)
    (hr : s.run i count fuel = .some r) : s.Becomes r.session (s.openedBy opened i {}) := by
  have hstart := h.start i
  simp only [Session.run] at hr
  rcases hres : (s.start i).result with f | _
  · rw [hres] at hr
    cases hr
    exact hstart
  · rw [hres] at hr
    obtain ⟨r', hr', rfl⟩ := Option.map_eq_some_iff.1 hr
    have hissue := hstart.sound.issue hr'
    exact (hstart.trans hissue).trans (hissue.sound.finalize i)

/-! ## Steps -/

/-- The logs that generators have opened, after a step. -/
def openedAfter (s : Session) (opened : Nat → Option LogFile) : Step → Nat → Option LogFile
  | .openLog i c => s.openedBy opened i c
  | .start i | .run i _ => s.openedBy opened i {}
  | _ => opened

/-- Any step of a sound session leads on to a sound one. -/
theorem Sound.step {fuel : Nat} {st : Step} {r : Reply Answer} (h : s.Sound opened)
    (hr : s.step fuel st = .some r) : s.Becomes r.session (s.openedAfter opened st) := by
  cases st with
  | openLog i c => cases hr; exact h.openLog i c
  | produce i => cases hr; exact h.produce i
  | finalize i => cases hr; exact h.finalize i
  | idle => cases hr; exact h.refl
  | attach i => cases hr; exact h.attach i
  | start i => cases hr; exact h.start i
  | newCall => cases hr; exact h.newCall
  | fire event id => cases hr; exact (h.handleAll event { id } _).becomes
  | run i count =>
    obtain ⟨r', hr', rfl⟩ := Option.map_eq_some_iff.1 hr
    exact h.run hr'
  | shutdown =>
    cases hr
    have hstop := h.refl.stop true
    rw [Bool.or_true] at hstop
    exact hstop
  | observe event o => cases hr; exact h.refl.withSettings s.tree _ s.level
  | replace way content => cases hr; exact h.refl.withSettings _ s.handlers s.level
  | level name =>
    simp only [Session.step, Option.some.injEq] at hr
    subst hr
    rcases Level.chosen name with f | l
    · exact h.refl
    · exact h.refl.withSettings s.tree s.handlers l

/-- A session, and the logs that its generators have opened so far. -/
structure Moment where
  session : Session
  opened : Nat → Option LogFile

/-- Moments one after the other, with any steps between them. A step counts also where it fails. -/
inductive Moment.Before : Moment → Moment → Prop
  | same (m : Moment) : Before m m
  | step {m m' : Moment} {r : Reply Answer} (fuel : Nat) (st : Step) (h : Before m m')
      (hr : m'.session.step fuel st = .some r) : Before m ⟨r.session, m'.session.openedAfter m'.opened st⟩

theorem Moment.Before.becomes {m m' : Moment} (h : m.Before m') (hm : m.session.Sound m.opened) :
    m.session.Becomes m'.session m'.opened := by
  induction h with
  | same => exact hm.refl
  | step fuel st _ hr ih => exact ih.trans (ih.sound.step hr)

/-- An engine as it is made, with generators as they are made. -/
structure New (s : Session) : Prop extends Fresh s where
  generators : ∀ g ∈ s.generators, g.Fresh ∧ g.cursor = 0

theorem New.sound (h : s.New) : s.Sound fun _ => .none where
  generators := by
    intro i g hi
    obtain ⟨hg, hcursor⟩ := h.generators g (List.mem_of_getElem? hi)
    refine ⟨?_, ?_, ?_, fun _ => hcursor, nofun, fun _ => ⟨hcursor, hg.shutdown, rfl⟩, ?_⟩
    · rw [hg.stage]
      exact iff_of_false nofun (mt Stage.name_ready_iff.1 nofun)
    · intro log hlog
      rw [hg.stage] at hlog; cases hlog
    · intro last hlast
      rw [hg.stage] at hlast; cases hlast
    · intro hon
      rw [hg.shutdown] at hon; cases hon
  increasing := by simp [h.issued]
  numbered := by simp [h.issued]
  headed := by simp [h.issued]

/-- **After any steps of a new session it is sound, and from any moment to any later one it has only
gone onward.** Each generator goes from uninitialized over ready to stopped, or there at once; it
holds an open log just while it is ready and closes it when it is stopped, its cursor stands between
records of the log that it has opened, it asks for a shutdown only if it does not loop, and what it has
asked for and was set to stays. The session keeps its headers and a request to stop, and adds calls
with rising numbers that begin with those headers. -/
theorem session_invariant (h : s.New) {now later : Moment} (hnow : Moment.Before ⟨s, fun _ => .none⟩ now)
    (hlater : now.Before later) :
    later.session.Sound later.opened ∧ now.session.Onward later.session := by
  have hsound := (hnow.becomes h.sound).sound
  have hbecomes := hlater.becomes hsound
  exact ⟨hbecomes.sound, hbecomes.onward⟩

theorem session_invariant_twoRequests :
    let now : Moment := ⟨(twoRequests.openLog 0 {}).session, twoRequests.openedBy (fun _ => .none) 0 {}⟩
    let later : Moment := ⟨(now.session.produce 0).session.newCall.session.finalize 0, now.opened⟩
    twoRequests.New ∧ Moment.Before ⟨twoRequests, fun _ => .none⟩ now ∧ now.Before later ∧
      ∃ g, later.session.generators[0]? = .some g ∧ g.path = .some "log" ∧
        Scan.AtBoundary [0, 97, 1, 47, 120, 0, 0, 47, 121] g.cursor := by
  intro now later
  have hnew : twoRequests.New := ⟨⟨rfl, rfl, rfl, rfl⟩, List.forall_mem_singleton.2 ⟨⟨rfl, rfl⟩, rfl⟩⟩
  have hnow : Moment.Before ⟨twoRequests, fun _ => .none⟩ now :=
    .step 0 (.openLog 0 {}) (.same _) rfl
  have hproduced := Moment.Before.step 0 (.produce 0) (.same now) rfl
  have hcalled := hproduced.step 0 .newCall rfl
  have hlater : now.Before later := hcalled.step 0 (.finalize 0) rfl
  obtain ⟨hsound, honward⟩ := session_invariant hnew hnow hlater
  obtain ⟨g, hg, hbecomes⟩ := honward.generators 0 _ rfl
  have hboundary := (hsound.generators 0 g hg).boundary ⟨"log", [0, 97, 1, 47, 120, 0, 0, 47, 121], false⟩ rfl
  exact ⟨hnew, hnow, hlater, g, hg, (hbecomes.settings nofun).1, hboundary⟩

end Session

end RequestLog
