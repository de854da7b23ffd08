/-
Which configurations a choice of a log can be made over. A configuration in a
file is checked before anything is set in it, so one that names no log of its
own is refused even where the command line chooses one. If it does name one,
which one makes no difference, for the choice takes its place
(`chosen_log_needs_own_file`).
-/
import RequestLog.Proofs.Overriding

namespace RequestLog.Config

variable {m m' s : Mapping} {f : Fields} {v : Value}

/-- Without a file, nothing else is looked at. -/
theorem checked_void (hs : section? (m.field wlogField) = .ok s) (hvoid : (s.field fileField).isVoid = true) :
    checked (.map m) = .error (.refused .fileMissing) := by
  unfold checked
  rw [normalize_eq, hs]
  change (validate (normalOf m s) >>= _) = _
  unfold validate
  simp only [sectionOf_eq (normalOf_wlog m s), normalSection_file, hvoid, if_true]
  rfl

/-- A configuration stands for the same fields as with another file, but for the file. -/
theorem Reads.of_file {s' : Mapping} (hs : section? (m.field wlogField) = .ok s)
    (h : Reads (m.insert (.text wlogField) (.map (s.insert (.text fileField) v))) s' f) :
    Reads m s { f with file := s.field fileField } := by
  obtain ⟨hwlog, ⟨_, hloop, hembedded⟩, hheader, hcalls, hverbose⟩ := h
  rw [Mapping.field_insert_self, section?_map] at hwlog
  cases hwlog
  rw [Mapping.get?_insert_other _ (by decide)] at hloop hembedded
  rw [Mapping.field_insert_other _ (by decide)] at hheader hcalls
  rw [verboseOf, Mapping.get?_insert_other _ (by decide)] at hverbose
  exact ⟨hs, ⟨rfl, hloop, hembedded⟩, hheader, hcalls, hverbose⟩

namespace Override

variable {o : Override}

/-- Once a log is chosen, the file of the fields makes no difference. -/
theorem Suits.of_file (hchosen : given o.log ≠ .none) (h : o.Suits { f with file := v }) : o.Suits f where
  log := h.log
  file := fun hnone => absurd hnone hchosen
  addHeader := h.addHeader
  numCalls := h.numCalls

theorem Yields.of_file {settled : Settings} (hchosen : given o.log ≠ .none)
    (h : o.Yields { f with file := v } settled) : o.Yields f settled where
  chosenLog := h.chosenLog
  ownLog := fun hnone => absurd hnone hchosen
  embedded := h.embedded
  addHeader := h.addHeader
  chosenCalls := h.chosenCalls
  ownCalls := h.ownCalls
  verbose := h.verbose

/-- **A choice of a log needs a configuration that names a log of its own.** Take a configuration in a file
that would pass the checks with some file in its section on the log. If it has a file there, the log that the
command line chooses takes its place, beside the other fields of the configuration. If it has none, the
configuration is refused for it, whatever the command line chooses. -/
theorem chosen_log_needs_own_file [Reader] (hs : section? (m.field wlogField) = .ok s)
    (hadded : checked (.map (m.insert (.text wlogField) (.map (s.insert (.text fileField) v)))) = .ok m')
    {t : Tree} {path : Text} {content : Bytes} {payload : Value} (hfile : t.lookup path = .ok (.file content))
    (hvalue : valueOfContent path content = .ok payload) (hm : payload = .map m ∨ payload.isVoid = true ∧ m = [])
    {environment : Option Text} (hsource : o.source? environment = .some path) :
    ((s.field fileField).isVoid = false → given o.log ≠ .none →
      ∃ s' f, Normal m' s' f ∧ ((∃ settled, o.resolve t environment = .ok settled) ↔ o.Suits f) ∧
        ∀ settled, o.resolve t environment = .ok settled → o.Yields f settled) ∧
    ((s.field fileField).isVoid = true →
      o.resolve t environment = .error (.refused .fileMissing) ∧
      ∀ i : CommandLine.Invocation,
        (CommandLine.replay t environment i o).exitCode? = .some 2 ∧
        (CommandLine.replay t environment i o).printed = [] ∧
        (CommandLine.replay t environment i o).reported = ["wlog: wlog.file is required"]) := by
  have hload : o.base t environment = checked (.map m) := by
    rw [base, hsource]
    exact load_eq_checked hfile hvalue hm
  constructor
  · intro hown hchosen
    obtain ⟨s', f, hreads, hvoid, rfl⟩ := reads_of_checked hadded
    have howned := Reads.of_file hs hreads
    have hbase := Base.loaded path (howned.normal hown)
    rw [resolve_of_base (hload.trans (howned.checked hown))]
    refine ⟨f.sectionFrom s', f, hreads.normal hvoid, ⟨?_, ?_⟩, ?_⟩
    · rintro ⟨settled, hok⟩
      exact (onto_ok hbase hok).1.of_file hchosen
    · intro hsuits
      exact onto_succeeds hbase (hsuits.of_file hchosen) fun hnone => absurd hnone hchosen
    · intro settled hok
      obtain ⟨_, _, hyields⟩ := onto_ok hbase hok
      exact hyields.of_file hchosen
  · intro hvoid
    have hresolve : o.resolve t environment = .error (.refused .fileMissing) := by
      rw [resolve_eq_onto, hload, checked_void hs hvoid]
      rfl
    refine ⟨hresolve, fun i => ?_⟩
    have hreplay : CommandLine.replay t environment i o = ⟨t, i.level, [], .error (.refused .fileMissing)⟩ := by
      rw [CommandLine.replay, hresolve]
    rw [hreplay]
    exact ⟨rfl, rfl, rfl⟩

/-- A choice of a log over the file `c`. -/
def chosenOverFile : Override where
  file := .some "c"
  log := .some "n,v"

/-- With the lines `wlog: y,u` and `7:` in the file, and with nothing in it. -/
theorem chosen_log_needs_own_file_two :
    (∃ settled, chosenOverFile.resolve unknownKeyTree .none = .ok settled ∧ settled.file = "v") ∧
      chosenOverFile.resolve ⟨[], [([[99]], .file [])]⟩ .none = .error (.refused .fileMissing) := by
  have hsource : chosenOverFile.source? .none = .some "c" := rfl
  constructor
  · obtain ⟨howned, -⟩ := chosen_log_needs_own_file (v := .text "u") rfl rfl (t := unknownKeyTree) rfl
      valueOf_unknownKeyContent (.inl rfl) hsource
    obtain ⟨_, f, _, hok, hyields⟩ := howned rfl nofun
    have hsuits : chosenOverFile.Suits f := by
      refine ⟨?_, nofun, by decide, nofun⟩
      rintro _ ⟨⟩
      exact ⟨(false, "v"), rfl⟩
    obtain ⟨settled, hsettled⟩ := hok.2 hsuits
    have hlog := (hyields settled hsettled).chosenLog _ rfl
    exact ⟨settled, hsettled, (Prod.mk.inj (Except.ok.inj hlog)).2.symm⟩
  · have hread : (valueOfContent "c" []).toOption.map Value.isVoid = .some true := by decide +kernel
    cases hvalue : valueOfContent "c" [] with
    | error e =>
      rw [hvalue] at hread
      cases hread
    | ok payload =>
      rw [hvalue] at hread
      obtain ⟨-, hmissing⟩ := chosen_log_needs_own_file (m := []) (v := .text "u") rfl rfl
        (t := ⟨[], [([[99]], .file [])]⟩) rfl hvalue (.inr ⟨Option.some.inj hread, rfl⟩) hsource
      exact (hmissing rfl).1

/-- A configuration that lacks nothing but a log, as in the file `num_calls: 1`, is refused though the command
line chooses one. -/
theorem chosen_log_refused :
    (∃ m, checked (.map [(.text callsField, .int 1), (.text wlogField, .map [(.text fileField, .text "v")])]) = .ok m) ∧
      ((CommandLine.run ⟨[], [([[99]], .file [110, 117, 109, 95, 99, 97, 108, 108, 115, 58, 32, 49, 10]),
          ([[117]], .file [47, 97, 0])]⟩ .none [] ["replay", "--config", "c", "--wlog", "n,u"]).map fun o =>
        (o.exitCode?, o.printed, o.reported)).toOption = .some (.some 2, [], ["wlog: wlog.file is required"]) := by
  refine ⟨⟨_, rfl⟩, ?_⟩
  decide +kernel

end Override

end RequestLog.Config
