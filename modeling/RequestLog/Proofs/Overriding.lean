/-
What a command line makes of a configuration, field by field. A configuration
to begin with is in normal form, or it is empty and stands for the usual fields
(`Base`). A choice of a log goes before the log of the configuration, and so does a
number of calls; headers are added, and the higher verbosity counts
(`onto_base`). So settings always name a file (`resolve_file_ne_nil`), a verbosity
makes no difference to settings but to their own (`resolve_verbose`), and a log that
is chosen without a configuration has the usual settings (`resolve_log`). Options are
taken just when each of them can be read and there is a file
(`options_over_configuration`).
-/
import RequestLog.Proofs.NormalForm
import RequestLog.Proofs.Twins

namespace RequestLog.Config

/-! ## The configuration to begin with -/

/-- A configuration to begin with, by its source, and what it stands for. -/
inductive Base (c : Mapping) : Option Text → Fields → Prop where
  | usual (h : c = []) : Base c .none {}
  | loaded (path : Text) {s : Mapping} {f : Fields} (h : Normal c s f) : Base c (.some path) f

variable {c m s : Mapping} {f : Fields} {source : Option Text}

/-- What is loaded from a file is in normal form. -/
theorem load_normal [Reader] {t : Tree} {path : Text} (h : load t path = .ok c) : ∃ s f, Normal c s f := by
  obtain ⟨m, h⟩ := load_ok h
  obtain ⟨s, f, hreads, hfile, rfl⟩ := reads_of_checked h
  exact ⟨f.sectionFrom s, f, hreads.normal hfile⟩

namespace Base

theorem readsLog (h : Base c source f) : ReadsLog (sectionOf c) f := by
  cases h with
  | usual h =>
    subst h
    exact ⟨rfl, rfl, rfl⟩
  | loaded path h =>
    rw [sectionOf_eq (Mapping.field_of_get? h.wlog)]
    exact h.reads.log

theorem header (h : Base c source f) :
    c.field headerField = .list (f.addHeader.map .text) ∨ c.field headerField = .null ∧ f.addHeader = [] := by
  cases h with
  | usual h =>
    subst h
    exact .inr ⟨rfl, rfl⟩
  | loaded path h => exact .inl (Mapping.field_of_get? h.addHeader)

theorem calls (h : Base c source f) : c.field callsField = callsValue f.numCalls := by
  cases h with
  | usual h =>
    subst h
    rfl
  | loaded path h => exact Mapping.field_of_get? h.numCalls

theorem verbose (h : Base c source f) : verboseOf c = .int f.verbose := by
  cases h with
  | usual h =>
    subst h
    rfl
  | loaded path h =>
    rw [verboseOf, h.verbose]
    rfl

end Base

namespace Override

variable {o : Override} {t : Tree} {environment : Option Text}

theorem base_fields [Reader] (h : o.base t environment = .ok c) : ∃ f, Base c (o.source? environment) f := by
  unfold base at h
  cases hsource : o.source? environment with
  | none =>
    rw [hsource] at h
    cases h
    exact ⟨{}, .usual rfl⟩
  | some path =>
    rw [hsource] at h
    obtain ⟨s, f, hnormal⟩ := load_normal h
    exact ⟨f, .loaded path hnormal⟩

/-! ## Options over fields -/

/-- The fields with the choice of a log. -/
def chooseLog (o : Override) (f : Fields) : Except Failure Fields :=
  match given o.log with
  | .none => .ok f
  | .some w => (parseOption w).map fun (loop, path) => { f with file := .text path, loop := loop }

theorem setLog_reads (h : ReadsLog s f) : Alike ReadsLog (o.setLog s) (o.chooseLog f) := by
  unfold setLog chooseLog
  cases given o.log with
  | none => exact .ok h
  | some w =>
    refine (Alike.refl (parseOption w)).map ?_
    rintro ⟨loop, path⟩ _ rfl
    constructor
    case file => rw [Mapping.field_insert_other _ (by decide), Mapping.field_insert_self]
    case loop => rw [Mapping.get?_insert_self]; rfl
    case embedded =>
      rw [Mapping.get?_insert_other _ (by decide), Mapping.get?_insert_other _ (by decide)]
      exact h.embedded

theorem setEmbedded_reads (h : ReadsLog s f) :
    ReadsLog (o.setEmbedded s) { f with embedded := f.embedded || o.embedded } := by
  unfold setEmbedded
  split
  · rename_i he
    constructor
    case file => rw [Mapping.field_insert_other _ (by decide), h.file]
    case loop => rw [Mapping.get?_insert_other _ (by decide)]; exact h.loop
    case embedded => rw [Mapping.get?_insert_self, he, Bool.or_true]; rfl
  · rename_i he
    rw [Bool.eq_false_iff.2 he, Bool.or_false]
    exact h

theorem setHeaders_header {ts : List Text}
    (h : m.field headerField = .list (ts.map .text) ∨ m.field headerField = .null ∧ ts = []) :
    headerList ((o.setHeaders m).field headerField) = .list (ts.map .text ++ o.addHeader.map (chosen .text)) := by
  unfold setHeaders
  split
  · rename_i hnone
    rw [List.isEmpty_iff.1 hnone, List.map_nil, List.append_nil]
    obtain h | ⟨h, rfl⟩ := h
    · rw [h]; rfl
    · rw [h]; rfl
  · rw [Mapping.field_insert_self]
    obtain h | ⟨h, rfl⟩ := h
    · rw [h]; rfl
    · rw [h]; rfl

/-- The number of calls that is checked in the end. -/
def callsOver (o : Override) (before : Option Nat) : Value := (o.numCalls.map (chosen .int)).getD (callsValue before)

theorem setCalls_callsOver {n : Option Nat} (h : m.field callsField = callsValue n) :
    (o.setCalls m).field callsField = o.callsOver n := by
  unfold setCalls callsOver
  cases o.numCalls with
  | none => exact h
  | some k => exact Mapping.field_insert_self m callsField _

/-- The settings of a configuration with a section on the log and with what options set beside it. -/
theorem settings_over {f' : Fields} (hc : Base c source f) (hs : ReadsLog s f') (hfile : f'.file.isVoid = false) :
    settings (.map (o.setVerbose (o.setCalls (o.setHeaders (c.insert (.text wlogField) (.map s)))))) =
      (headers (.list (f.addHeader.map .text ++ o.addHeader.map (chosen .text)))).bind fun ts =>
        (callCount (o.callsOver f.numCalls)).bind fun n =>
          Fields.settings { f' with addHeader := ts, numCalls := n, verbose := max f.verbose o.verbose } := by
  generalize hm : c.insert (.text wlogField) (.map s) = m
  have hsection : (o.setVerbose (o.setCalls (o.setHeaders m))).field wlogField = .map s := by
    rw [setVerbose_field _ (by decide), setCalls_field _ (by decide), setHeaders_field _ (by decide), ← hm,
      Mapping.field_insert_self]
  have hheader : headerList ((o.setVerbose (o.setCalls (o.setHeaders m))).field headerField) =
      .list (f.addHeader.map .text ++ o.addHeader.map (chosen .text)) := by
    rw [setVerbose_field _ (by decide), setCalls_field _ (by decide)]
    refine setHeaders_header ?_
    rw [← hm, Mapping.field_insert_other _ (by decide)]
    exact hc.header
  have hcalls : (o.setVerbose (o.setCalls (o.setHeaders m))).field callsField = o.callsOver f.numCalls := by
    rw [setVerbose_field _ (by decide)]
    refine setCalls_callsOver ?_
    rw [setHeaders_field _ (by decide), ← hm, Mapping.field_insert_other _ (by decide)]
    exact hc.calls
  have hverbose : verboseOf (o.setVerbose (o.setCalls (o.setHeaders m))) = .int (max f.verbose o.verbose : Nat) := by
    refine setVerbose_verbose ?_
    rw [setCalls_verbose, setHeaders_verbose, verboseOf, ← hm, Mapping.get?_insert_other _ (by decide)]
    exact hc.verbose
  rw [settings_map, hsection, section?_map]
  change settle _ _ _ _ = _
  rw [hverbose, hs.settle hfile (verbosity_natCast _), hheader, hcalls]

/-- What options make of a configuration to begin with. -/
def onto (o : Override) (c : Mapping) : Except Failure Settings := do
  let s := o.setEmbedded (← o.setLog (sectionOf c))
  if (s.field fileField).isVoid then .error (.refused .noLog)
  settings (.map (o.setVerbose (o.setCalls (o.setHeaders (c.insert (.text wlogField) (.map s))))))

theorem resolve_eq_onto [Reader] (o : Override) (t : Tree) (environment : Option Text) :
    o.resolve t environment = (o.base t environment).bind o.onto := rfl

theorem resolve_of_base [Reader] (h : o.base t environment = .ok c) : o.resolve t environment = o.onto c := by
  rw [resolve_eq_onto, h]
  rfl

/-- Options are checked in turn: the log first, then the headers, and then the number of calls. -/
theorem onto_base (o : Override) (hc : Base c source f) :
    o.onto c = (o.chooseLog f).bind fun f' =>
      if f'.file.isVoid then .error (.refused .noLog)
      else (headers (.list (f.addHeader.map .text ++ o.addHeader.map (chosen .text)))).bind fun ts =>
        (callCount (o.callsOver f.numCalls)).bind fun n =>
          Fields.settings ⟨f'.file, f'.loop, f'.embedded || o.embedded, ts, n, max f.verbose o.verbose⟩ := by
  unfold onto
  obtain ⟨e, hset, hchoose⟩ | ⟨s, f', hset, hchoose, hreads⟩ := (setLog_reads (o := o) hc.readsLog).cases
  · rw [hset, hchoose]
    rfl
  have hembedded := setEmbedded_reads (o := o) hreads
  rw [hset, hchoose]
  change (if ((o.setEmbedded s).field fileField).isVoid = true then _ else settings _) =
    if f'.file.isVoid = true then _ else _
  rw [hembedded.file]
  split
  · rfl
  · rename_i hvoid
    exact settings_over hc hembedded (by simpa using hvoid)

/-- Headers and a verbosity make a difference only where they are checked or counted. -/
theorem resolve_with [Reader] (h : o.base t environment = .ok c) (hc : Base c source f) (hs : List (Option Text))
    (k : Nat) :
    Override.resolve { o with addHeader := hs, verbose := k } t environment = (o.chooseLog f).bind fun f' =>
      if f'.file.isVoid then .error (.refused .noLog)
      else (headers (.list (f.addHeader.map .text ++ hs.map (chosen .text)))).bind fun ts =>
        (callCount (o.callsOver f.numCalls)).bind fun n =>
          Fields.settings ⟨f'.file, f'.loop, f'.embedded || o.embedded, ts, n, max f.verbose k⟩ :=
  (resolve_of_base (o := { o with addHeader := hs, verbose := k }) h).trans (onto_base _ hc)

/-! ## When options are taken -/

/-- Options that can be taken over fields: a log can be read and has a file, or the fields have one; a header
is there for each option, and a number of calls. -/
structure Suits (o : Override) (f : Fields) : Prop where
  log : ∀ w, given o.log = .some w → ∃ p, parseOption w = .ok p
  file : given o.log = .none → f.file.isVoid = false
  addHeader : .none ∉ o.addHeader
  numCalls : ∀ n, o.numCalls = .some n → ∃ k : Nat, n = .some (k : Int)

/-- The settings that options make of fields. -/
structure Yields (o : Override) (f : Fields) (settled : Settings) : Prop where
  chosenLog : ∀ w, given o.log = .some w → parseOption w = .ok (settled.loop, settled.file)
  ownLog : given o.log = .none → settled.loop = f.loop ∧ settled.file = f.file.plain
  embedded : settled.embedded = (f.embedded || o.embedded)
  addHeader : ∃ ts, o.addHeader = ts.map .some ∧ settled.addHeader = f.addHeader ++ ts
  chosenCalls : ∀ n, o.numCalls = .some n → ∃ k : Nat, n = .some (k : Int) ∧ settled.numCalls = .some k
  ownCalls : o.numCalls = .none → settled.numCalls = f.numCalls
  verbose : settled.verbose = max f.verbose o.verbose

/-- Options leave no doubt about the settings. -/
theorem Yields.unique {a b : Settings} (ha : o.Yields f a) (hb : o.Yields f b) : a = b := by
  have hlog : a.loop = b.loop ∧ a.file = b.file := by
    cases hlog : given o.log with
    | none =>
      obtain ⟨hloop, hfile⟩ := ha.ownLog hlog
      obtain ⟨hloop', hfile'⟩ := hb.ownLog hlog
      exact ⟨hloop.trans hloop'.symm, hfile.trans hfile'.symm⟩
    | some w => exact Prod.mk.inj (Except.ok.inj ((ha.chosenLog w hlog).symm.trans (hb.chosenLog w hlog)))
  have hheader : a.addHeader = b.addHeader := by
    obtain ⟨ts, hts, hadded⟩ := ha.addHeader
    obtain ⟨us, hus, hadded'⟩ := hb.addHeader
    rw [hadded, hadded', (List.map_inj_right fun _ _ => Option.some.inj).1 (hts.symm.trans hus)]
  have hcalls : a.numCalls = b.numCalls := by
    cases hcalls : o.numCalls with
    | none => exact (ha.ownCalls hcalls).trans (hb.ownCalls hcalls).symm
    | some n =>
      obtain ⟨k, rfl, hk⟩ := ha.chosenCalls n hcalls
      obtain ⟨l, hl, hl'⟩ := hb.chosenCalls _ hcalls
      rw [hk, hl', Int.ofNat.inj (Option.some.inj hl)]
  have hembedded := ha.embedded.trans hb.embedded.symm
  have hverbose := ha.verbose.trans hb.verbose.symm
  cases a
  cases b
  rw [Settings.mk.injEq]
  exact ⟨hlog.2, hlog.1, hembedded, hheader, hcalls, hverbose⟩

theorem chosen_some {α : Type} (make : α → Value) (a : α) : chosen make (.some a) = make a := rfl

theorem chosen_text_eq_iff {a : Option Text} {t : Text} : chosen .text a = .text t ↔ a = .some t := by
  cases a <;> simp [chosen]

theorem map_chosen_text_eq_iff {os : List (Option Text)} {ts : List Text} :
    os.map (chosen .text) = ts.map .text ↔ os = ts.map .some := by
  induction os generalizing ts with
  | nil => cases ts <;> simp
  | cons a os ih => cases ts <;> simp [chosen_text_eq_iff, ih]

theorem headers_chosen_iff {os : List (Option Text)} {before ts : List Text} :
    headers (.list (before.map .text ++ os.map (chosen .text))) = .ok ts ↔
      ∃ us, os = us.map .some ∧ ts = before ++ us := by
  rw [headers_eq_ok_iff, Value.list.injEq, List.append_eq_map_iff]
  constructor
  · rintro ⟨before', us, rfl, hbefore, hus⟩
    rw [(List.map_injective_iff.2 fun _ _ => Value.text.inj) hbefore]
    exact ⟨us, map_chosen_text_eq_iff.1 hus.symm, rfl⟩
  · rintro ⟨us, hus, rfl⟩
    exact ⟨before, us, rfl, rfl, (map_chosen_text_eq_iff.2 hus).symm⟩

theorem callCount_callsOver_iff {before n : Option Nat} :
    callCount (o.callsOver before) = .ok n ↔
      (∀ a, o.numCalls = .some a → ∃ k : Nat, a = .some (k : Int) ∧ n = .some k) ∧
        (o.numCalls = .none → n = before) := by
  rw [callCount_eq_ok_iff, callsOver]
  rcases o.numCalls with _ | _ | i
  · cases before <;> cases n <;> simp [callsValue, eq_comm]
  · cases n <;> simp [chosen, callsValue]
  · cases n <;> simp [chosen, callsValue]

/-- A choice of a log brings its path and its flag, and without one the fields stay. -/
theorem chooseLog_ok {f' : Fields} (h : o.chooseLog f = .ok f') :
    (∀ w, given o.log = .some w → ∃ path, parseOption w = .ok (f'.loop, path) ∧ f'.file = .text path) ∧
      (given o.log = .none → f' = f) ∧ f'.embedded = f.embedded := by
  unfold chooseLog at h
  cases hlog : given o.log with
  | none =>
    rw [hlog] at h
    cases h
    exact ⟨nofun, fun _ => rfl, rfl⟩
  | some w =>
    rw [hlog] at h
    obtain ⟨⟨loop, path⟩, hparse, rfl⟩ := map_eq_ok_iff.1 h
    refine ⟨?_, nofun, rfl⟩
    rintro _ ⟨⟩
    exact ⟨path, hparse, rfl⟩

theorem chooseLog_error {e : Failure} (h : o.chooseLog f = .error e) : ∃ r, e = .refused r := by
  unfold chooseLog at h
  split at h
  · cases h
  · exact parseOption_error (map_eq_error_iff.1 h)

/-- Settings are made of options that can be taken, and as the options say. -/
theorem onto_ok {settled : Settings} (hc : Base c source f) (h : o.onto c = .ok settled) :
    o.Suits f ∧ (given o.log = .none → f.file.hasText = true) ∧ o.Yields f settled := by
  rw [onto_base o hc] at h
  obtain ⟨f', hchoose, h⟩ := bind_eq_ok_iff.1 h
  split at h
  · cases h
  rename_i hvoid
  obtain ⟨ts, hts, h⟩ := bind_eq_ok_iff.1 h
  obtain ⟨n, hn, h⟩ := bind_eq_ok_iff.1 h
  unfold Fields.settings at h
  split at h
  case isFalse => cases h
  rename_i htext
  cases h
  obtain ⟨hchosen, hown, hembedded⟩ := chooseLog_ok hchoose
  obtain ⟨us, hus, rfl⟩ := headers_chosen_iff.1 hts
  obtain ⟨hcalls, hbefore⟩ := callCount_callsOver_iff.1 hn
  have hsuits : o.Suits f := by
    constructor
    case log =>
      intro w hw
      obtain ⟨path, hparse, _⟩ := hchosen w hw
      exact ⟨_, hparse⟩
    case file =>
      intro hnone
      rw [← hown hnone]
      simpa using hvoid
    case addHeader => simp [hus]
    case numCalls =>
      intro a ha
      obtain ⟨k, hk, _⟩ := hcalls a ha
      exact ⟨k, hk⟩
  refine ⟨hsuits, fun hnone => hown hnone ▸ htext, ?_⟩
  constructor
  case chosenLog =>
    intro w hw
    obtain ⟨path, hparse, hpath⟩ := hchosen w hw
    rw [hparse, Fields.plain, hpath]
    rfl
  case ownLog =>
    intro hnone
    rw [hown hnone]
    exact ⟨rfl, rfl⟩
  case embedded => exact congrArg (· || o.embedded) hembedded
  case addHeader => exact ⟨us, hus, rfl⟩
  case chosenCalls => exact hcalls
  case ownCalls => exact hbefore
  case verbose => rfl

theorem parseOption_path_ne_nil {w path : Text} {loop : Bool} (h : parseOption w = .ok (loop, path)) : path ≠ [] := by
  unfold parseOption at h
  split at h
  · cases h
  · cases h
  · rename_i hne _
    obtain ⟨_, _, h⟩ := map_eq_ok_iff.1 h
    cases h
    exact hne

theorem exists_map_some : ∀ {os : List (Option Text)}, .none ∉ os → ∃ ts : List Text, os = ts.map .some
  | [], _ => ⟨[], rfl⟩
  | .none :: _, h => absurd List.mem_cons_self h
  | .some t :: _, h => by
    obtain ⟨ts, rfl⟩ := exists_map_some fun hmem => h (List.mem_cons_of_mem _ hmem)
    exact ⟨t :: ts, rfl⟩

/-- Options that can be taken are, if a file that the fields name has a text. -/
theorem onto_succeeds (hc : Base c source f) (h : o.Suits f) (htext : given o.log = .none → f.file.hasText = true) :
    ∃ settled, o.onto c = .ok settled := by
  obtain ⟨f', hchoose⟩ : ∃ f', o.chooseLog f = .ok f' := by
    unfold chooseLog
    cases hlog : given o.log with
    | none => exact ⟨f, rfl⟩
    | some w =>
      obtain ⟨p, hp⟩ := h.log w hlog
      simp only [hp]
      exact ⟨_, rfl⟩
  obtain ⟨hchosen, hown, _⟩ := chooseLog_ok hchoose
  have hfile : f'.file.isVoid = false ∧ f'.file.hasText = true := by
    cases hlog : given o.log with
    | none =>
      rw [hown hlog]
      exact ⟨h.file hlog, htext hlog⟩
    | some w =>
      obtain ⟨path, hparse, hpath⟩ := hchosen w hlog
      rw [hpath]
      exact ⟨by simpa [Value.isVoid] using parseOption_path_ne_nil hparse, rfl⟩
  obtain ⟨us, hus⟩ := exists_map_some h.addHeader
  have hheaders := headers_chosen_iff.2 ⟨us, hus, Eq.refl (f.addHeader ++ us)⟩
  obtain ⟨n, hn⟩ : ∃ n, callCount (o.callsOver f.numCalls) = .ok n := by
    cases hcalls : o.numCalls with
    | none => exact ⟨f.numCalls, callCount_callsOver_iff.2 (by simp [hcalls])⟩
    | some a =>
      obtain ⟨k, rfl⟩ := h.numCalls a hcalls
      exact ⟨.some k, callCount_callsOver_iff.2 (by simp [hcalls])⟩
  rw [onto_base o hc, hchoose]
  simp only [Except.bind, hfile, hheaders, hn, Fields.settings, Bool.false_eq_true, if_false, if_true]
  exact ⟨_, rfl⟩

/-- Options are refused, or the file that the fields name has no text. -/
theorem onto_error {e : Failure} (hc : Base c source f) (h : o.onto c = .error e) :
    (∃ r, e = .refused r) ∨ e = .numeralTooLong ∧ given o.log = .none ∧ f.file.hasText = false := by
  rw [onto_base o hc] at h
  rcases bind_eq_error_iff.1 h with h | ⟨f', hchoose, h⟩
  · exact .inl (chooseLog_error h)
  split at h
  · cases h
    exact .inl ⟨_, rfl⟩
  rcases bind_eq_error_iff.1 h with h | ⟨ts, _, h⟩
  · exact .inl (headers_error h)
  rcases bind_eq_error_iff.1 h with h | ⟨n, _, h⟩
  · exact .inl (callCount_error h)
  unfold Fields.settings at h
  split at h
  · cases h
  rename_i htext
  cases h
  -- a log that is chosen has a text, so the file without one is that of the fields
  obtain ⟨hchosen, hown, _⟩ := chooseLog_ok hchoose
  refine .inr ⟨rfl, ?_⟩
  cases hlog : given o.log with
  | none =>
    rw [hown hlog] at htext
    exact ⟨rfl, by simpa using htext⟩
  | some w =>
    obtain ⟨path, _, hpath⟩ := hchosen w hlog
    rw [hpath] at htext
    exact absurd rfl htext

/-! ## Settings by their file and verbosity -/

theorem resolve_file_ne_nil [Reader] {settled : Settings} (h : o.resolve t environment = .ok settled) :
    settled.file ≠ [] := by
  rw [resolve_eq_onto] at h
  obtain ⟨c, hbase, honto⟩ := bind_eq_ok_iff.1 h
  obtain ⟨f, hc⟩ := base_fields hbase
  obtain ⟨hsuits, _, hyields⟩ := onto_ok hc honto
  cases hlog : given o.log with
  | none =>
    rw [(hyields.ownLog hlog).2]
    exact Value.plain_ne_nil (hsuits.file hlog)
  | some w => exact parseOption_path_ne_nil (hyields.chosenLog w hlog)

/-- **A verbosity on the command line raises that of the settings, and makes no other difference.** -/
theorem resolve_verbose [Reader] (o : Override) (t : Tree) (environment : Option Text) :
    o.resolve t environment = (Override.resolve { o with verbose := 0 } t environment).map fun settled =>
      { settled with verbose := max settled.verbose o.verbose } := by
  cases hbase : o.base t environment with
  | error e =>
    rw [resolve_eq_onto, hbase]
    change _ = ((o.base t environment).bind _).map _
    rw [hbase]
    rfl
  | ok c =>
  obtain ⟨f, hc⟩ := base_fields hbase
  rw [resolve_with hbase hc o.addHeader 0]
  refine (resolve_with hbase hc o.addHeader o.verbose).trans ?_
  cases o.chooseLog f with
  | error e => rfl
  | ok f' =>
  simp only [Except.bind]
  split
  · rfl
  cases headers (.list (f.addHeader.map .text ++ o.addHeader.map (chosen .text))) with
  | error e => rfl
  | ok ts =>
  cases callCount (o.callsOver f.numCalls) with
  | error e => rfl
  | ok n =>
  simp only [Fields.settings, Fields.plain, Nat.max_zero]
  split <;> rfl

/-- **A log that is chosen without a configuration** is replayed once and as it is, unless headers
are embedded. -/
theorem resolve_log [Reader] {path : Text} (hpath : path ≠ []) (t : Tree) (e : Bool) (n : Nat) :
    Override.resolve { log := .some (110 :: 44 :: path), embedded := e, verbose := n } t .none =
      .ok ⟨path, false, e, [], .none, n⟩ := by
  have hparse : parseOption (110 :: 44 :: path) = .ok (false, path) := by
    obtain ⟨c, path, rfl⟩ := List.exists_cons_of_ne_nil hpath
    rfl
  have hchoose : chooseLog { log := .some (110 :: 44 :: path), embedded := e, verbose := n } {} =
      .ok { file := .text path } := by
    simp only [chooseLog, given, Option.filter, List.isEmpty_cons, Bool.not_false, if_true, hparse]
    rfl
  have hfile : (Value.text path).isVoid = false := by simpa [Value.isVoid] using hpath
  rw [resolve_of_base (c := []) rfl, onto_base _ (.usual rfl), hchoose]
  simp only [Except.bind, hfile, Bool.false_eq_true, if_false, Nat.zero_max]
  cases e <;> rfl

/-! ## All options -/

/-- **A command line over a configuration, field by field.** Options are taken just when each of them can be
read and there is a file, and then each field is as the options say, or else as the configuration does. All
other options are refused. Only a file that the configuration names as an integer can be too long to have a
text, which is no refusal. -/
theorem options_over_configuration [Reader] (h : o.base t environment = .ok c) :
    ∃ f, Base c (o.source? environment) f ∧
      ((∃ settled, o.resolve t environment = .ok settled) ↔
        o.Suits f ∧ (given o.log = .none → f.file.hasText = true)) ∧
      (∀ settled, o.resolve t environment = .ok settled → o.Yields f settled) ∧
      ∀ e, o.resolve t environment = .error e →
        (∃ r, e = .refused r) ∨ e = .numeralTooLong ∧ given o.log = .none ∧ f.file.hasText = false := by
  obtain ⟨f, hbase⟩ := base_fields h
  rw [resolve_of_base h]
  refine ⟨f, hbase, ⟨?_, ?_⟩, ?_, fun e => onto_error hbase⟩
  · rintro ⟨settled, hok⟩
    obtain ⟨hsuits, htext, _⟩ := onto_ok hbase hok
    exact ⟨hsuits, htext⟩
  · rintro ⟨hsuits, htext⟩
    exact onto_succeeds hbase hsuits htext
  · intro settled hok
    obtain ⟨_, _, hyields⟩ := onto_ok hbase hok
    exact hyields

/-- Options that choose a log, a header and no calls at all, over the file in `unknownKeyTree`. -/
def fiveOptions : Override where
  file := .some "c"
  log := .some "n,v"
  embedded := true
  addHeader := [.some "h"]
  numCalls := .some (.some 0)
  verbose := 2

theorem options_over_configuration_fiveOptions :
    ∃ c, fiveOptions.base unknownKeyTree .none = .ok c ∧
      fiveOptions.resolve unknownKeyTree .none = .ok ⟨"v", false, true, ["h"], .some 0, 2⟩ := by
  have hload : fiveOptions.base unknownKeyTree .none =
      .ok [(.text wlogField, .map [(.text fileField, .text "u"), (.text loopField, .bool true),
        (.text embeddedField, .bool false)]), (.int 7, .null), (.text headerField, .list []),
        (.text callsField, .null), (.text verboseField, .int 0)] :=
    load_eq_checked rfl valueOf_unknownKeyContent (.inl rfl)
  obtain ⟨f, hbase, hok, hyields, _⟩ := options_over_configuration hload
  have hheader : f.addHeader = [] := by
    obtain h | ⟨_, h⟩ := hbase.header
    · exact List.map_eq_nil_iff.1 (Value.list.inj h).symm
    · exact h
  have hverbose : f.verbose = 0 := by
    have h : (0 : Int) = f.verbose := Value.int.inj hbase.verbose
    omega
  have hsuits : fiveOptions.Suits f := by
    refine ⟨?_, nofun, by decide, ?_⟩
    · rintro _ ⟨⟩
      exact ⟨(false, "v"), rfl⟩
    · rintro _ ⟨⟩
      exact ⟨0, rfl⟩
  obtain ⟨settled, hsettled⟩ := hok.2 ⟨hsuits, nofun⟩
  have hexpected : fiveOptions.Yields f ⟨"v", false, true, ["h"], .some 0, 2⟩ := by
    constructor
    case chosenLog =>
      rintro _ ⟨⟩
      rfl
    case ownLog => nofun
    case embedded => exact (Bool.or_true _).symm
    case addHeader => exact ⟨["h"], rfl, by rw [hheader]; rfl⟩
    case chosenCalls =>
      rintro _ ⟨⟩
      exact ⟨0, rfl, rfl⟩
    case ownCalls => nofun
    case verbose =>
      rw [hverbose]
      rfl
  exact ⟨_, hload, hsettled.trans (congrArg Except.ok ((hyields settled hsettled).unique hexpected))⟩

/-- An integer for a file can be too long to have a text. A configuration with it is loaded, and there are no
settings, but that is no refusal. -/
theorem numeral_for_file_escapes :
    ∃ c, checked (.map [(.text wlogField, .map [(.text fileField, .int (10 ^ 4300))])]) = .ok c ∧
      Override.onto {} c = .error .numeralTooLong := by
  have hreads : Reads [(.text wlogField, .map [(.text fileField, .int (10 ^ 4300))])]
      [(.text fileField, .int (10 ^ 4300))] { file := .int (10 ^ 4300) } := by
    refine ⟨rfl, ⟨rfl, rfl, rfl⟩, rfl, rfl, rfl⟩
  have hvoid : (Value.int (10 ^ 4300)).isVoid = false := by decide +kernel
  refine ⟨_, hreads.checked hvoid, ?_⟩
  rw [onto_base {} (.loaded "c" (hreads.normal hvoid))]
  decide +kernel

end Override

end RequestLog.Config
