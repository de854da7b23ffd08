/-
One header in place of two. Headers that options add reach nothing but the
headers of settings (`resolve_joined`), and those reach nothing but the first
headers of each call. So where two of them are decoded apart, one that is both
together makes the same requests (`headers_decode_apart`), and so it does among
the words of a replay (`run_joined`).
-/
import RequestLog.Proofs.Encoding
import RequestLog.Proofs.HeaderWords
import RequestLog.Proofs.Overriding
import RequestLog.Proofs.ReplayCommand
import RequestLog.Proofs.Seams

namespace RequestLog

namespace Config

/-! ## Settings by the headers that options add -/

theorem texts?_append (vs ws : List Value) :
    texts? (vs ++ ws) = (texts? vs).bind fun ts => (texts? ws).map (ts ++ ·) := by
  induction vs with
  | nil => simp [texts?]
  | cons v vs ih =>
    cases v with
    | text t =>
      simp only [List.cons_append, texts?, ih]
      cases texts? vs <;> cases texts? ws <;> rfl
    | _ => rfl

theorem headers_joined (before after : List Value) (ta tb : Text) :
    Alike (fun ts us => ∃ before after, ts = before ++ ta :: tb :: after ∧ us = before ++ (ta ++ tb) :: after)
      (headers (.list (before ++ .text ta :: .text tb :: after)))
      (headers (.list (before ++ .text (ta ++ tb) :: after))) := by
  simp only [headers, texts?_append, texts?]
  cases texts? before with
  | none => exact .error _
  | some ts =>
  cases texts? after with
  | none => exact .error _
  | some us => exact .ok ⟨ts, us, rfl, rfl⟩

/-- Settings with two headers next to each other, and the same settings with both in one. -/
def Settings.Joined (ta tb : Text) (s s' : Settings) : Prop :=
  ∃ before after, s.addHeader = before ++ ta :: tb :: after ∧
    s' = { s with addHeader := before ++ (ta ++ tb) :: after }

/-- **Options of headers make a difference to the headers of settings only:** with two of them next to each
other, and with both in one, options make the same of all else. -/
theorem Override.resolve_joined [Config.Reader] (o : Override) (before after : List (Option Text)) (ta tb : Text)
    (t : Tree) (environment : Option Text) :
    Alike (Settings.Joined ta tb)
      (Override.resolve { o with addHeader := before ++ .some ta :: .some tb :: after } t environment)
      (Override.resolve { o with addHeader := before ++ .some (ta ++ tb) :: after } t environment) := by
  cases hbase : o.base t environment with
  | error f =>
    have hfails : ∀ hs, Override.resolve { o with addHeader := hs } t environment = .error f := by
      intro hs
      change (o.base t environment).bind _ = _
      rw [hbase]
      rfl
    rw [hfails, hfails]
    exact .error f
  | ok c =>
  obtain ⟨f, hc⟩ := base_fields hbase
  rw [resolve_with hbase hc _ o.verbose, resolve_with hbase hc _ o.verbose]
  cases o.chooseLog f with
  | error e => exact .error e
  | ok f' =>
  simp only [Except.bind]
  split
  · exact .error _
  simp only [List.map_append, List.map_cons, chosen_some, ← List.append_assoc]
  -- the headers are checked alike, and nothing after them looks at them
  obtain ⟨e, htwo, hone⟩ | ⟨ts, us, htwo, hone, hjoined⟩ :=
    (headers_joined (f.addHeader.map .text ++ before.map (chosen .text)) (after.map (chosen .text)) ta tb).cases
  · rw [htwo, hone]
    exact .error e
  rw [htwo, hone]
  cases callCount (o.callsOver f.numCalls) with
  | error e => exact .error e
  | ok n =>
  unfold Fields.settings
  dsimp only
  split
  · obtain ⟨vs, ws, hts, hus⟩ := hjoined
    exact .ok ⟨vs, ws, hts, by rw [hus]; rfl⟩
  · exact .error _

/-! ## The headers of calls -/

/-- Headers that are the same in one, and are some. -/
structure SameBlock (hs hs' : List Bytes) : Prop where
  flatten : hs'.flatten = hs.flatten
  left : hs ≠ []
  right : hs' ≠ []

theorem SameBlock.cons {hs hs' : List Bytes} (h : SameBlock hs hs') (header : Bytes) :
    SameBlock (header :: hs) (header :: hs') :=
  ⟨congrArg (header ++ ·) h.flatten, List.cons_ne_nil _ _, List.cons_ne_nil _ _⟩

section Options

open Escape

variable {ts : List Token} {a b : Bytes} {ta tb : Text}

/-- **Headers that are decoded apart make the same in one,** with the same notices. -/
theorem Settings.extraHeaders_joined (hnul : 0 ∉ a) (ha : Reading ts a) (hseam : Seam ts b)
    (hta : ta.toBytes = .ok a) (htb : tb.toBytes = .ok b) (before after : List Text) :
    let two := extraHeaders (before ++ ta :: tb :: after)
    let one := extraHeaders (before ++ (ta ++ tb) :: after)
    one.notices = two.notices ∧ Alike SameBlock two.value one.value := by
  induction before with
  | nil =>
    obtain ⟨hvalue, hnotices⟩ := unescape_append hnul ha hseam optionSource
    simp only [List.nil_append, extraHeaders, unescapeDatum, Datum.toBytes, hta, htb, Text.toBytes_append hta htb,
      Except.map, hvalue, hnotices, List.append_assoc, true_and]
    cases (extraHeaders after).value with
    | error f => exact .error f
    | ok hs => exact .ok ⟨by simp, List.cons_ne_nil _ _, List.cons_ne_nil _ _⟩
  | cons t before ih =>
    simp only [List.cons_append, extraHeaders]
    cases unescapeDatum (.text t) optionSource with
    | error f => exact ⟨rfl, .error _⟩
    | ok h => exact ⟨congrArg (h.notices ++ ·) ih.1, ih.2.map fun _ _ hs => hs.cons h.value⟩

end Options

end Config

/-! ## The calls of a replay -/

/-- Calls that make the same request. -/
structure Call.Same (c c' : Call) : Prop where
  id : c'.id = c.id
  target : c'.target = c.target
  headerBlock : c'.headerBlock = c.headerBlock

section Calls

variable {hs hs' : List Bytes} {c c' : Call} {t : Tree} {s s' : Config.Settings} {ta tb : Text}

theorem Call.Twin.same (h : c.Twin hs hs' c') (hblock : Config.SameBlock hs hs') : c.Same c' := by
  obtain ⟨hid, htarget, added, hc, hc'⟩ := h
  refine ⟨hid, htarget, ?_⟩
  rw [Call.headerBlock, Call.headerBlock, hc, hc', List.flatten_append, List.flatten_append, hblock.flatten]

namespace CommandLine

theorem callLine_twin (h : c.Twin hs hs' c') (hblock : Config.SameBlock hs hs') : callLine c' = callLine c := by
  have hsame := h.same hblock
  obtain ⟨_, _, added, hc, hc'⟩ := h
  have hsome : c.headers.isEmpty = false := by rw [hc]; simp [hblock.left]
  have hsome' : c'.headers.isEmpty = false := by rw [hc']; simp [hblock.right]
  simp only [callLine, hsame.id, hsame.target, hsame.headerBlock, hsome, hsome']

theorem lines_twin (hblock : Config.SameBlock hs hs') {calls calls' : List Call}
    (h : List.Forall₂ (Call.Twin hs hs') calls calls') : calls'.map callLine = calls.map callLine := by
  induction h with
  | nil => rfl
  | cons h _ ih => rw [List.map_cons, List.map_cons, callLine_twin h hblock, ih]

end CommandLine

end Calls

namespace Config

/-- The calls that settings make of a log, if a run of them ends. The level makes no difference to
them. -/
def Settings.calls (s : Settings) (t : Tree) : Option (Except Failure (List Call)) :=
  match (extraHeaders s.addHeader).value with
  | .error f => .some (.error f)
  | .ok headers => (DryRun.run t .info s headers).map Session.Reply.result

/-- The calls that options make of a log, if a run of them ends. -/
def Override.calls [Config.Reader] (o : Override) (t : Tree) (environment : Option Text) :
    Option (Except Failure (List Call)) :=
  match o.resolve t environment with
  | .error f => .some (.error f)
  | .ok s => s.calls t

end Config

namespace CommandLine

open Config (Override Settings)

variable {t : Tree} {environment : Option Text} {level : Level} {v : Invocation} {o : Override} {s : Settings}
  {ls : List Text}

theorem replaySettings_calls (h : (replaySettings t level s).result = .ok ls) :
    ∃ calls, s.calls t = .some (.ok calls) ∧ ls = calls.map callLine := by
  unfold replaySettings at h
  simp only at h
  split at h
  · cases h
  rename_i headers hheaders
  split at h
  · cases h
  rename_i r hrun
  split at h
  · cases h
  rename_i calls hcalls
  refine ⟨calls, ?_, (Except.ok.inj h).symm⟩
  simp only [Settings.calls, hheaders, DryRun.result_level t .info level, hrun, hcalls, Option.map_some]

/-- What a replay prints is a line for each of the calls that its options make. -/
theorem replay_calls [Config.Reader] (h : (replay t environment v o).result = .ok ls) :
    ∃ calls, o.calls t environment = .some (.ok calls) ∧ ls = calls.map callLine := by
  unfold replay at h
  split at h
  · cases h
  rename_i s hs
  split at h
  · cases h
  simp only [Override.calls, hs]
  exact replaySettings_calls h

end CommandLine

section Joined

open Escape CommandLine Config

variable {ts : List Token} {a b : Bytes} {ta tb : Text} {s s' : Settings}

theorem Config.Settings.Joined.extraHeaders (h : s.Joined ta tb s') (hnul : 0 ∉ a) (ha : Reading ts a)
    (hseam : Seam ts b) (hta : ta.toBytes = .ok a) (htb : tb.toBytes = .ok b) :
    (Settings.extraHeaders s'.addHeader).notices = (Settings.extraHeaders s.addHeader).notices ∧
      Alike SameBlock (Settings.extraHeaders s.addHeader).value (Settings.extraHeaders s'.addHeader).value := by
  obtain ⟨before, after, hs, rfl⟩ := h
  rw [hs]
  exact Settings.extraHeaders_joined hnul ha hseam hta htb before after

theorem Config.Settings.Joined.run (h : s.Joined ta tb s') (t : Tree) (level : Level) :
    DryRun.run t level s' = DryRun.run t level s := by
  obtain ⟨_, _, _, rfl⟩ := h
  rfl

theorem Config.Settings.Joined.calls (h : s.Joined ta tb s')
    (hheaders : Alike SameBlock (Settings.extraHeaders s.addHeader).value (Settings.extraHeaders s'.addHeader).value)
    (t : Tree) : Option.Rel (Alike (List.Forall₂ Call.Same)) (s.calls t) (s'.calls t) := by
  unfold Settings.calls
  rcases hheaders.cases with ⟨f, hf, hf'⟩ | ⟨hs, hs', hok, hok', hblock⟩
  · simp only [hf, hf']
    exact .some (.error f)
  · simp only [hok, hok', h.run]
    refine Session.rel_map ?_ (DryRun.run_twin t .info s hs hs')
    intro r r' hr
    rcases hr.result.cases with ⟨f, hf, hf'⟩ | ⟨calls, calls', hcalls, hcalls', htwins⟩
    · rw [hf, hf']
      exact .error f
    · rw [hcalls, hcalls']
      exact .ok (htwins.imp fun _ _ htwin => htwin.same hblock)

theorem replaySettings_joined (h : s.Joined ta tb s')
    (hnotices : (Settings.extraHeaders s'.addHeader).notices = (Settings.extraHeaders s.addHeader).notices)
    (hheaders : Alike SameBlock (Settings.extraHeaders s.addHeader).value (Settings.extraHeaders s'.addHeader).value)
    (t : Tree) (level : Level) : replaySettings t level s' = replaySettings t level s := by
  unfold replaySettings
  rcases hheaders.cases with ⟨f, hf, hf'⟩ | ⟨hs, hs', hok, hok', hblock⟩
  · simp only [hf, hf', hnotices]
  · simp only [hok, hok', h.run, hnotices]
    have hrun := DryRun.run_twin t level s hs hs'
    generalize DryRun.run t level s hs = q, DryRun.run t level s hs' = q' at hrun
    cases hrun with
    | none => rfl
    | some hr =>
      simp only [hr.signals]
      rcases hr.result.cases with ⟨f, hf, hf'⟩ | ⟨calls, calls', hcalls, hcalls', htwins⟩
      · simp only [hf, hf']
      · simp only [hcalls, hcalls', htwins.length_eq, lines_twin hblock htwins]

/-- Two headers that are decoded apart are one header to a replay. -/
theorem replay_joined [Config.Reader] (hnul : 0 ∉ a) (ha : Reading ts a) (hseam : Seam ts b) (hta : ta.toBytes = .ok a)
    (htb : tb.toBytes = .ok b) (o : Override) (before after : List (Option Text)) (t : Tree)
    (environment : Option Text) :
    let two := { o with addHeader := before ++ .some ta :: .some tb :: after }
    let one := { o with addHeader := before ++ .some (ta ++ tb) :: after }
    Option.Rel (Alike (List.Forall₂ Call.Same)) (two.calls t environment) (one.calls t environment) ∧
      ∀ v, replay t environment v one = replay t environment v two := by
  intro two one
  have hresolve : Alike (Settings.Joined ta tb) (two.resolve t environment) (one.resolve t environment) :=
    Override.resolve_joined o before after ta tb t environment
  rcases hresolve.cases with ⟨f, hf, hf'⟩ | ⟨s, s', hok, hok', hjoined⟩
  · simp only [Override.calls, replay, hf, hf']
    exact ⟨.some (.error f), fun _ => trivial⟩
  · obtain ⟨hnotices, hheaders⟩ := hjoined.extraHeaders hnul ha hseam hta htb
    simp only [Override.calls, replay, hok, hok']
    refine ⟨hjoined.calls hheaders t, ?_⟩
    intro v
    rw [replaySettings_joined hjoined hnotices hheaders]
    obtain ⟨_, _, _, rfl⟩ := hjoined
    rfl

/-- **So they are among the words of a replay,** of which all but a divider are headers as they are. -/
theorem run_joined [Config.Reader] (hnul : 0 ∉ a) (ha : Reading ts a) (hseam : Seam ts b) (hta : ta.toBytes = .ok a)
    (htb : tb.toBytes = .ok b) (hdivider : divider ∉ [ta, tb, ta ++ tb]) (t : Tree) (environment : Option Text)
    (token : Bytes) (words : List Text) :
    run t environment token (replayWord :: headerWord (ta ++ tb) :: words) =
      run t environment token (replayWord :: headerWord ta :: headerWord tb :: words) := by
  have hvalue : ∀ u ∈ [ta, tb, ta ++ tb], argumentValue u = .some u := by
    intro u hu
    refine if_neg fun heq => hdivider ?_
    rwa [← eq_of_beq heq]
  have hone := ofWords_headerWords [ta ++ tb] words
  have htwo := ofWords_headerWords [ta, tb] words
  simp only [List.map_cons, List.map_nil, List.cons_append, List.nil_append, hvalue ta (by simp),
    hvalue tb (by simp), hvalue (ta ++ tb) (by simp)] at hone htwo
  rw [run, run, hone, htwo]
  rcases Invocation.ofWords (replayWord :: words) with stop | ⟨verbose, quiet, o | b | i⟩
  · rfl
  · obtain ⟨_, hreplay⟩ := replay_joined hnul ha hseam hta htb o [] o.addHeader t environment
    exact congrArg Except.ok (hreplay ⟨verbose, quiet, .replay o⟩)
  · rfl
  · rfl

/-- **Two texts decode as one where they meet between escapes:** the first has no NUL and does not end in
a lone backslash, nor in octal digits that go on in the second. Its bytes and notices are then those of
both, in order. So headers given by two options that follow each other make every call that they make as
one header, wherever else headers are from: the calls have the same headers in one, and the replay tells
and prints the same. Among the words of a command line too, two words with such headers do what one does. -/
theorem headers_decode_apart [Config.Reader] (hnul : 0 ∉ a) (ha : Reading ts a) (hseam : Seam ts b) :
    (∀ source, (unescape (a ++ b) source).value = (unescape a source).value ++ (unescape b source).value ∧
      (unescape (a ++ b) source).notices = (unescape a source).notices ++ (unescape b source).notices) ∧
    ∀ ta tb : Text, ta.toBytes = .ok a → tb.toBytes = .ok b →
      (∀ (o : Override) (before after : List (Option Text)) (t : Tree) (environment : Option Text),
        let two := { o with addHeader := before ++ .some ta :: .some tb :: after }
        let one := { o with addHeader := before ++ .some (ta ++ tb) :: after }
        Option.Rel (Alike (List.Forall₂ Call.Same)) (two.calls t environment) (one.calls t environment) ∧
          ∀ v, replay t environment v one = replay t environment v two) ∧
      (divider ∉ [ta, tb, ta ++ tb] → ∀ (t : Tree) (environment : Option Text) (token : Bytes) (words : List Text),
        run t environment token (replayWord :: headerWord (ta ++ tb) :: words) =
          run t environment token (replayWord :: headerWord ta :: headerWord tb :: words)) :=
  ⟨unescape_append hnul ha hseam, fun _ _ hta htb =>
    ⟨replay_joined hnul ha hseam hta htb, run_joined hnul ha hseam hta htb⟩⟩

/-- Octal digits before one that is none. -/
theorem headers_decode_apart_octal :
    (unescape [92, 49, 48, 49, 56] optionSource).value = [65, 56] ∧
      (∀ v, replay Session.twoRequests.tree .none v { loopedReplay with addHeader := [.some "\\1018"] } =
        replay Session.twoRequests.tree .none v
          { loopedReplay with addHeader := [.some "\\101", .some "8"] }) ∧
      ∀ words, run Session.twoRequests.tree .none [49] (replayWord :: headerWord "\\1018" :: words) =
        run Session.twoRequests.tree .none [49] (replayWord :: headerWord "\\101" :: headerWord "8" :: words) := by
  have hreading : Reading [.octal [49, 48, 49]] [92, 49, 48, 49] :=
    .cons (.octal (List.cons_ne_nil _ _) (by simp) nofun) .nil
  have hseam : Seam [.octal [49, 48, 49]] [56] := by
    refine ⟨nofun, ?_⟩
    rintro digits - d hd
    cases hd
    decide
  obtain ⟨hdecode, hoptions⟩ := headers_decode_apart (by decide) hreading hseam
  obtain ⟨hreplays, hruns⟩ := hoptions "\\101" "8" rfl rfl
  obtain ⟨_, hreplay⟩ := hreplays loopedReplay [] [] Session.twoRequests.tree .none
  have hvalues : (unescape [92, 49, 48, 49] optionSource).value ++ (unescape [56] optionSource).value = [65, 56] := by
    decide +kernel
  exact ⟨(hdecode optionSource).1.trans hvalues, hreplay, hruns (by decide) Session.twoRequests.tree .none [49]⟩

end Joined

end RequestLog
