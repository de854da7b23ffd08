/-
How a configuration can fail. Each check of a field only refuses it
(`validate_error`), but what is no mapping is found out before any check, and
not as a refusal: so it is for a configuration that does not have the shape of
one (`Shaped`, `settings_misfit`), and for a numeral too long to be read as a
word (`Worded`). Apart from these a configuration is settled or refused, on a
command line too (`configuration_failures`).
-/
import RequestLog.CommandLine.Outcome
import RequestLog.Proofs.Mappings
import RequestLog.Proofs.Outcomes

namespace RequestLog.Config

/-! ## Failures of the checks -/

variable {f : Failure}

/-- A flag is refused, unless it is a numeral too long to be a word. -/
theorem flag_error {which : Flag} {v : Value} (h : flag which v = .error f) :
    (∃ r, f = .refused r) ∨ f = .numeralTooLong ∧ v.hasText = false := by
  unfold flag at h
  split at h
  · cases h
  · split at h
    · rename_i htext
      cases h
      exact .inr ⟨rfl, by simpa using htext⟩
    · split at h
      · cases h
      · cases h
        exact .inl ⟨_, rfl⟩

theorem flag_hasText {which : Flag} {v : Value} {b : Bool} (h : flag which v = .ok b) : v.hasText = true := by
  unfold flag at h
  split at h
  · rfl
  · split at h
    · cases h
    · rename_i htext
      simpa using htext

theorem headers_error {v : Value} (h : headers v = .error f) : ∃ r, f = .refused r := by
  unfold headers at h
  split at h
  · split at h <;> cases h
    exact ⟨_, rfl⟩
  · cases h
    exact ⟨_, rfl⟩

theorem callCount_error {v : Value} (h : callCount v = .error f) : ∃ r, f = .refused r := by
  unfold callCount at h
  split at h
  · cases h
  · split at h <;> cases h
    exact ⟨_, rfl⟩
  · cases h
    exact ⟨_, rfl⟩

theorem verbosity_error {v : Value} (h : verbosity v = .error f) : ∃ r, f = .refused r := by
  unfold verbosity at h
  split at h
  · cases h
  · split at h <;> cases h
    exact ⟨_, rfl⟩
  · cases h
    exact ⟨_, rfl⟩

theorem parseOption_error {t : Text} (h : parseOption t = .error f) : ∃ r, f = .refused r := by
  unfold parseOption at h
  split at h
  · cases h; exact ⟨_, rfl⟩
  · cases h; exact ⟨_, rfl⟩
  · obtain hr | ⟨_, hword⟩ := flag_error (map_eq_error_iff.1 h)
    · exact hr
    · cases hword

/-- A section whose file and flags have a text. -/
def Worded (s : Mapping) : Prop := ∀ name ∈ [fileField, loopField, embeddedField], (s.field name).hasText = true

theorem Worded.insert {s : Mapping} (h : Worded s) (name : Text) {v : Value} (hv : v.hasText = true) :
    Worded (s.insert (.text name) v) := by
  intro other hother
  rw [Mapping.field_insert]
  split
  · exact hv
  · exact h other hother

/-- A default changes nothing, for what it stands in for is null. -/
theorem worded_insertNew {s : Mapping} (name : Text) {v : Value} (hv : v.hasText = true) :
    Worded (s.insertNew (.text name) v) ↔ Worded s := by
  unfold Mapping.insertNew
  split
  · rfl
  · rename_i habsent
    refine ⟨?_, fun h => h.insert name hv⟩
    intro h other hother
    by_cases heq : other = name
    · have hnull : s.field other = .null := by
        rw [heq, Mapping.field, Option.not_isSome_iff_eq_none.1 habsent]; rfl
      rw [hnull]; rfl
    · rw [← Mapping.field_insert_other s heq v]
      exact h other hother

/-- The checks only refuse a configuration in normal form, if its flags have a text. -/
theorem validate_error {m : Mapping} (h : validate m = .error f) :
    (∃ r, f = .refused r) ∨ f = .numeralTooLong ∧ ¬ Worded (sectionOf m) := by
  unfold validate at h
  simp only at h
  split at h
  · cases h
    exact .inl ⟨_, rfl⟩
  · have hflag : ∀ {which : Flag} {name : Text}, name ∈ [fileField, loopField, embeddedField] →
        flag which ((sectionOf m).field name) = .error f →
        (∃ r, f = .refused r) ∨ f = .numeralTooLong ∧ ¬ Worded (sectionOf m) := by
      intro which name hname hf
      refine (flag_error hf).imp_right (And.imp_right ?_)
      intro htext hw
      exact absurd (hw name hname) (by simp [htext])
    rcases bind_eq_error_iff.1 h with hloop | ⟨loop, _, h⟩
    · exact hflag (by simp) hloop
    rcases bind_eq_error_iff.1 h with hembedded | ⟨embedded, _, h⟩
    · exact hflag (by simp) hembedded
    rcases bind_eq_error_iff.1 h with hheaders | ⟨addHeader, _, h⟩
    · exact .inl (headers_error hheaders)
    rcases bind_eq_error_iff.1 h with hcalls | ⟨numCalls, _, h⟩
    · exact .inl (callCount_error hcalls)
    rcases bind_eq_error_iff.1 h with hverbose | ⟨verbose, _, h⟩
    · exact .inl (verbosity_error hverbose)
    cases h

/-- Checks that succeed have found a file and a value of each other field. -/
theorem validate_ok {m : Mapping} {checked : Mapping × Settings} (h : validate m = .ok checked) :
    ∃ loop embedded addHeader numCalls verbose, ((sectionOf m).field fileField).isVoid = false ∧
      flag .loop ((sectionOf m).field loopField) = .ok loop ∧
      flag .embeddedHeaders ((sectionOf m).field embeddedField) = .ok embedded ∧
      headers (m.field headerField) = .ok addHeader ∧ callCount (m.field callsField) = .ok numCalls ∧
      verbosity (m.field verboseField) = .ok verbose ∧
      checked = ((m.insert (.text wlogField) (.map (((sectionOf m).insert (.text loopField) (.bool loop)).insert
          (.text embeddedField) (.bool embedded)))).insert (.text verboseField) (.int verbose),
        ⟨((sectionOf m).field fileField).plain, loop, embedded, addHeader, numCalls, verbose⟩) := by
  unfold validate at h
  simp only at h
  split at h
  · cases h
  · rename_i hvoid
    obtain ⟨loop, hloop, h⟩ := bind_eq_ok_iff.1 h
    obtain ⟨embedded, hembedded, h⟩ := bind_eq_ok_iff.1 h
    obtain ⟨addHeader, haddHeader, h⟩ := bind_eq_ok_iff.1 h
    obtain ⟨numCalls, hnumCalls, h⟩ := bind_eq_ok_iff.1 h
    obtain ⟨verbose, hverbose, h⟩ := bind_eq_ok_iff.1 h
    cases h
    exact ⟨loop, embedded, addHeader, numCalls, verbose, by simpa using hvoid, hloop, hembedded, haddHeader,
      hnumCalls, hverbose, rfl⟩

/-- The checks make flags of the flags in the section, which have a text then, and leave the rest of it. -/
theorem validate_section {m : Mapping} {checked : Mapping × Settings} (h : validate m = .ok checked) :
    ((sectionOf m).field loopField).hasText = true ∧ ((sectionOf m).field embeddedField).hasText = true ∧
      ∃ loop embedded, checked.1.field wlogField =
        .map (((sectionOf m).insert (.text loopField) (.bool loop)).insert (.text embeddedField) (.bool embedded)) := by
  obtain ⟨loop, embedded, _, _, _, _, hloop, hembedded, _, _, _, rfl⟩ := validate_ok h
  refine ⟨flag_hasText hloop, flag_hasText hembedded, loop, embedded, ?_⟩
  rw [Mapping.field_insert_other _ (by decide), Mapping.field_insert_self]

theorem sectionOf_eq {m s : Mapping} (h : m.field wlogField = .map s) : sectionOf m = s := by
  rw [sectionOf, h]

/-! ## The normal form -/

/-- What a section on the log can be. -/
def Value.IsSection (v : Value) : Prop := v.isVoid = true ∨ (∃ t, v = .text t) ∨ v.IsMappable

/-- A configuration that is void, a mapping, or pairs, and so is its section on the log, unless that is
a text. -/
structure Shaped (payload : Value) : Prop where
  mappable : payload.isVoid = true ∨ payload.IsMappable
  sectioned : ∀ m, payload.toMappingOrEmpty = .ok m → (m.field wlogField).IsSection

/-- A configuration whose section on the log has a text for its file and its flags. -/
def Readable (payload : Value) : Prop :=
  ∀ m s, payload.toMappingOrEmpty = .ok m → section? (m.field wlogField) = .ok s → Worded s

variable {payload : Value}

theorem shaped_iff : Shaped payload ↔ ∃ m, payload.toMappingOrEmpty = .ok m ∧ (m.field wlogField).IsSection := by
  constructor
  · intro h
    obtain ⟨m, hm⟩ := Value.toMappingOrEmpty_eq_ok_iff.2 h.mappable
    exact ⟨m, hm, h.sectioned m hm⟩
  · rintro ⟨m, hm, hs⟩
    refine ⟨Value.toMappingOrEmpty_eq_ok_iff.1 ⟨m, hm⟩, ?_⟩
    intro m' hm'
    cases hm.symm.trans hm'
    exact hs

theorem section?_map (s : Mapping) : section? (.map s) = .ok s := by
  unfold section?
  split
  · rename_i h
    rw [List.isEmpty_iff.1 h]
  · rfl

theorem section?_error {v : Value} (h : section? v = .error f) :
    (∃ r, f = .refused r) ∨ (∃ r, f = .misfit r) ∧ ¬ v.IsSection := by
  unfold section? at h
  split at h
  · cases h
  · rename_i hvoid
    split at h
    · exact .inl (parseOption_error (map_eq_error_iff.1 h))
    · rename_i htext
      obtain ⟨r, hr, rfl⟩ := mapError_eq_error_iff.1 h
      refine .inr ⟨⟨r, rfl⟩, ?_⟩
      rintro (hv | ⟨t, rfl⟩ | hv)
      · exact hvoid hv
      · exact htext t rfl
      · obtain ⟨m, hm⟩ := Value.toMapping_eq_ok_iff.2 hv
        cases hr.symm.trans hm

theorem section?_misfit {v : Value} (h : ¬ v.IsSection) : ∃ r, section? v = .error (.misfit r) := by
  unfold section?
  split
  · rename_i hvoid
    exact absurd (.inl hvoid) h
  · split
    · exact absurd (.inr (.inl ⟨_, rfl⟩)) h
    · cases hm : v.toMapping with
      | ok m => exact absurd (.inr (.inr (Value.toMapping_eq_ok_iff.1 ⟨m, hm⟩))) h
      | error r => exact ⟨r, rfl⟩

/-! ## Failures of a configuration -/

/-- How a configuration fails: it is refused, or it has not the shape of one, or its file or a flag of it
has no text. -/
inductive Fails (payload : Value) : Failure → Prop where
  | refused (r : Refusal) : Fails payload (.refused r)
  | misfit (h : ¬ Shaped payload) (r : Misfit) : Fails payload (.misfit r)
  | numeral (h : ¬ Readable payload) : Fails payload .numeralTooLong

theorem Fails.of_refused (h : ∃ r, f = .refused r) : Fails payload f := by
  obtain ⟨r, rfl⟩ := h
  exact .refused r

/-- A mapping with a section on the log fails only for what is in that section. -/
theorem Fails.of_section {m s : Mapping} (hs : m.field wlogField = .map s) (hworded : Readable payload → Worded s)
    (h : Fails (.map m) f) : Fails payload f := by
  have hm : (Value.map m).toMappingOrEmpty = .ok m := Value.toMappingOrEmpty_map m
  cases h with
  | refused r => exact .refused r
  | misfit h r =>
    refine absurd (shaped_iff.2 ⟨m, hm, ?_⟩) h
    rw [hs]
    exact .inr (.inr (.inl ⟨s, rfl⟩))
  | numeral h =>
    refine .numeral (mt ?_ h)
    intro hreadable m' s' hm' hs'
    cases hm.symm.trans hm'
    rw [hs, section?_map] at hs'
    cases hs'
    exact hworded hreadable

theorem normalize_error (h : normalize payload = .error f) : Fails payload f := by
  unfold normalize at h
  rcases bind_eq_error_iff.1 h with hm | ⟨m, hm, h⟩
  · obtain ⟨r, hr, rfl⟩ := mapError_eq_error_iff.1 hm
    refine .misfit ?_ r
    intro hshaped
    obtain ⟨m, hm⟩ := Value.toMappingOrEmpty_eq_ok_iff.2 hshaped.mappable
    cases hr.symm.trans hm
  rcases bind_eq_error_iff.1 h with hs | ⟨s, _, h⟩
  · obtain hr | ⟨⟨r, rfl⟩, hsection⟩ := section?_error hs
    · exact .of_refused hr
    · refine .misfit ?_ r
      intro hshaped
      exact hsection (hshaped.sectioned m (mapError_eq_ok_iff.1 hm))
  cases h

/-- What has not the shape of a configuration is found out before any field is checked. -/
theorem normalize_misfit (h : ¬ Shaped payload) : ∃ r, normalize payload = .error (.misfit r) := by
  unfold normalize
  cases hm : payload.toMappingOrEmpty with
  | error r => exact ⟨r, rfl⟩
  | ok m =>
    have hs : ¬ (m.field wlogField).IsSection := fun hs => h (shaped_iff.2 ⟨m, hm, hs⟩)
    obtain ⟨r, hr⟩ := section?_misfit hs
    refine ⟨r, ?_⟩
    change (section? (m.field wlogField) >>= _) = _
    rw [hr]; rfl

theorem normalize_section {m : Mapping} (h : normalize payload = .ok m) :
    ∃ s, m.field wlogField = .map s ∧ (Readable payload ↔ Worded s) := by
  unfold normalize at h
  obtain ⟨m, hm, h⟩ := bind_eq_ok_iff.1 h
  obtain ⟨s, hs, h⟩ := bind_eq_ok_iff.1 h
  cases h
  refine ⟨(s.insertNew (.text loopField) (.bool false)).insertNew (.text embeddedField) (.bool false), ?_, ?_⟩
  · rw [Mapping.field_insertNew_other _ (by decide), Mapping.field_insertNew_other _ (by decide),
      Mapping.field_insert_other _ (by decide), Mapping.field_insert_self]
  · rw [worded_insertNew _ rfl, worded_insertNew _ rfl]
    have hm := mapError_eq_ok_iff.1 hm
    refine ⟨fun hreadable => hreadable m s hm hs, ?_⟩
    intro hworded m' s' hm' hs'
    cases hm.symm.trans hm'
    cases hs.symm.trans hs'
    exact hworded

/-- The checks of what a configuration becomes. -/
theorem validate_normal_error {m : Mapping} (hm : normalize payload = .ok m) (h : validate m = .error f) :
    Fails payload f := by
  obtain ⟨s, hs, hworded⟩ := normalize_section hm
  obtain hr | ⟨rfl, hnot⟩ := validate_error h
  · exact .of_refused hr
  · rw [sectionOf_eq hs] at hnot
    exact .numeral (mt hworded.1 hnot)

theorem validate_normal_section {m : Mapping} {checked : Mapping × Settings} (hm : normalize payload = .ok m)
    (h : validate m = .ok checked) :
    ∃ s, checked.1.field wlogField = .map s ∧ (Readable payload → Worded s) := by
  obtain ⟨s, hs, hworded⟩ := normalize_section hm
  obtain ⟨-, -, loop, embedded, hfield⟩ := validate_section h
  rw [sectionOf_eq hs] at hfield
  exact ⟨_, hfield, fun hreadable => ((hworded.1 hreadable).insert _ rfl).insert _ rfl⟩

theorem settings_error (h : settings payload = .error f) : Fails payload f := by
  unfold settings at h
  rcases bind_eq_error_iff.1 h with h | ⟨m, hm, h⟩
  · exact normalize_error h
  rcases bind_eq_error_iff.1 h with h | ⟨checked, hchecked, h⟩
  · exact validate_normal_error hm h
  obtain ⟨s, hs, hworded⟩ := validate_normal_section hm hchecked
  simp only [sectionOf_eq hs] at h
  split at h
  · rename_i htext
    cases h
    refine .numeral ?_
    intro hreadable
    have hfile := hworded hreadable fileField (by simp)
    simp [hfile] at htext
  · cases h

theorem settings_misfit (h : ¬ Shaped payload) : ∃ r, settings payload = .error (.misfit r) := by
  obtain ⟨r, hr⟩ := normalize_misfit h
  refine ⟨r, ?_⟩
  rw [settings, hr]; rfl

/-- What is accepted has a text for its file and its flags. -/
theorem settings_readable {s : Settings} (h : settings payload = .ok s) : Readable payload := by
  unfold settings at h
  obtain ⟨m, hm, h⟩ := bind_eq_ok_iff.1 h
  obtain ⟨checked, hchecked, h⟩ := bind_eq_ok_iff.1 h
  obtain ⟨s, hs, hworded⟩ := normalize_section hm
  obtain ⟨hloop, hembedded, loop, embedded, hfield⟩ := validate_section hchecked
  rw [sectionOf_eq hs] at hloop hembedded hfield
  simp only [sectionOf_eq hfield] at h
  rw [Mapping.field_insert_other _ (by decide), Mapping.field_insert_other _ (by decide)] at h
  -- the checks read the flags only; that the file has a text is what the settings ask for last
  have hfile : (Mapping.field s fileField).hasText = true := by
    split at h
    · cases h
    · rename_i htext
      simpa using htext
  refine hworded.2 ?_
  simp [Worded, hfile, hloop, hembedded]

/-! ## Failures of a configuration in a file -/

theorem normalize_map {m : Mapping} (h : payload.toMappingOrEmpty = .ok m) :
    normalize (.map m) = normalize payload := by
  unfold normalize
  rw [Value.toMappingOrEmpty_map, h]

/-- The configuration that the checks make of a value. -/
def checked (payload : Value) : Except Failure Mapping := do
  return (← validate (← normalize payload)).1

variable {t : Tree} {path : Text} {content : Bytes}

/-- What is loaded is a mapping that passed the checks. -/
theorem load_ok [Reader] {m : Mapping} (h : load t path = .ok m) : ∃ m₀, checked (.map m₀) = .ok m := by
  unfold load at h
  split at h
  · cases h
  obtain ⟨content, _, h⟩ := bind_eq_ok_iff.1 h
  obtain ⟨v, _, h⟩ := bind_eq_ok_iff.1 h
  simp only at h
  split at h
  · exact ⟨_, h⟩
  · split at h
    · exact ⟨[], h⟩
    · cases h

/-- What is in a file is checked as any other configuration is, but refused if it is neither a mapping
nor void. -/
theorem load_of_value [Reader] (hfile : t.lookup path = .ok (.file content))
    (hvalue : valueOfContent path content = .ok payload) :
    (¬ (payload.isVoid = true ∨ ∃ m, payload = .map m) ∧ ∃ r, load t path = .error (.refused r)) ∨
      load t path = checked payload := by
  have hread : t.read path = .ok content := by rw [Tree.read, hfile]
  have his : t.isFile path = true := by rw [Tree.isFile, hfile]
  unfold load
  rw [if_neg (by simp [his])]
  simp only [hread, hvalue, bind, Except.bind]
  split
  · exact .inr rfl
  · rename_i hmap
    split
    · -- a file with a void value counts as one with an empty mapping, and so does the value itself
      rename_i hvoid
      have hempty : payload.toMappingOrEmpty = .ok [] := by rw [Value.toMappingOrEmpty, if_pos hvoid]
      rw [normalize_map hempty]
      exact .inr rfl
    · rename_i hvoid
      exact .inl ⟨not_or.2 ⟨hvoid, fun ⟨m, hm⟩ => hmap m hm⟩, _, rfl⟩

theorem load_error [Reader] (hfile : t.lookup path = .ok (.file content))
    (hvalue : valueOfContent path content = .ok payload) (h : load t path = .error f) : Fails payload f := by
  obtain ⟨-, r, hr⟩ | hload := load_of_value hfile hvalue
  · cases hr.symm.trans h
    exact .refused r
  rw [hload] at h
  rcases bind_eq_error_iff.1 h with h | ⟨m, hm, h⟩
  · exact normalize_error h
  rcases bind_eq_error_iff.1 h with h | ⟨checked, _, h⟩
  · exact validate_normal_error hm h
  cases h

theorem load_section [Reader] {m : Mapping} (hfile : t.lookup path = .ok (.file content))
    (hvalue : valueOfContent path content = .ok payload) (h : load t path = .ok m) :
    ∃ s, m.field wlogField = .map s ∧ (Readable payload → Worded s) := by
  obtain ⟨-, r, hr⟩ | hload := load_of_value hfile hvalue
  · cases hr.symm.trans h
  obtain ⟨normal, hnormal, hbind⟩ := bind_eq_ok_iff.1 (hload.symm.trans h)
  obtain ⟨checked, hchecked, hfirst⟩ := bind_eq_ok_iff.1 hbind
  cases hfirst
  exact validate_normal_section hnormal hchecked

/-- What a reader finds wrong with a file is what is wrong with the configuration in it. -/
theorem load_unreadable [Reader] {u : Unreadable} (hfile : t.lookup path = .ok (.file content))
    (hread : Reader.read content = .error u) : load t path = .error (u.at path) := by
  have hcontent : t.read path = .ok content := by rw [Tree.read, hfile]
  have his : t.isFile path = true := by rw [Tree.isFile, hfile]
  have hvalue : valueOfContent path content = .error (u.at path) := by rw [valueOfContent, hread]
  unfold load
  rw [if_neg (by simp [his])]
  simp only [hcontent, hvalue, bind, Except.bind]

/-! ## Failures of a configuration under a command line -/

namespace Override

variable {o : Override} {environment : Option Text}

theorem setLog_error {s : Mapping} (h : o.setLog s = .error f) : ∃ r, f = .refused r := by
  unfold setLog at h
  split at h
  · cases h
  · exact parseOption_error (map_eq_error_iff.1 h)

theorem setLog_worded {s s' : Mapping} (h : o.setLog s = .ok s') (hs : Worded s) : Worded s' := by
  unfold setLog at h
  split at h
  · cases h
    exact hs
  · obtain ⟨⟨loop, path⟩, _, rfl⟩ := map_eq_ok_iff.1 h
    exact (hs.insert _ rfl).insert _ rfl

theorem setEmbedded_worded {s : Mapping} (hs : Worded s) : Worded (o.setEmbedded s) := by
  unfold setEmbedded
  split
  · exact hs.insert _ rfl
  · exact hs

section Fields

variable {name : Text} (m : Mapping)

theorem setHeaders_get? (h : name ≠ headerField) : (o.setHeaders m).get? (.text name) = m.get? (.text name) := by
  unfold setHeaders
  split
  · rfl
  · exact Mapping.get?_insert_other m h _

theorem setCalls_get? (h : name ≠ callsField) : (o.setCalls m).get? (.text name) = m.get? (.text name) := by
  unfold setCalls
  split
  · rfl
  · exact Mapping.get?_insert_other m h _

theorem setVerbose_get? (h : name ≠ verboseField) : (o.setVerbose m).get? (.text name) = m.get? (.text name) := by
  unfold setVerbose
  split
  · rfl
  · exact Mapping.get?_insert_other m h _

theorem setHeaders_field (h : name ≠ headerField) : (o.setHeaders m).field name = m.field name := by
  rw [Mapping.field, setHeaders_get? m h, Mapping.field]

theorem setCalls_field (h : name ≠ callsField) : (o.setCalls m).field name = m.field name := by
  rw [Mapping.field, setCalls_get? m h, Mapping.field]

theorem setVerbose_field (h : name ≠ verboseField) : (o.setVerbose m).field name = m.field name := by
  rw [Mapping.field, setVerbose_get? m h, Mapping.field]

end Fields

/-- The command line adds no failure but refusals. -/
theorem resolve_error [Reader] (hsource : o.source? environment = .some path)
    (hfile : t.lookup path = .ok (.file content)) (hvalue : valueOfContent path content = .ok payload)
    (h : o.resolve t environment = .error f) : Fails payload f := by
  have hbase : o.base t environment = load t path := by rw [base, hsource]
  unfold resolve at h
  rw [hbase] at h
  rcases bind_eq_error_iff.1 h with h | ⟨m, hm, h⟩
  · exact load_error hfile hvalue h
  obtain ⟨s, hs, hworded⟩ := load_section hfile hvalue hm
  rw [sectionOf_eq hs] at h
  rcases bind_eq_error_iff.1 h with h | ⟨s', hs', h⟩
  · exact .of_refused (setLog_error h)
  -- what the command line puts in the section has a text, so only what the file brought can lack one
  have hworded' : Readable payload → Worded (o.setEmbedded s') :=
    fun hreadable => setEmbedded_worded (setLog_worded hs' (hworded hreadable))
  simp only at h
  split at h
  · cases h
    exact .refused _
  · refine Fails.of_section ?_ hworded' (settings_error h)
    rw [setVerbose_field _ (by decide), setCalls_field _ (by decide), setHeaders_field _ (by decide),
      Mapping.field_insert_self]

/-- A configuration that cannot be read ends a replay. If a reader says that the file is malformed, this is
told in its words, with the exit code of a refusal; all else that it says has no exit code. -/
theorem unreadable_ends_replay [Reader] {u : Unreadable} (hsource : o.source? environment = .some path)
    (hfile : t.lookup path = .ok (.file content)) (hread : Reader.read content = .error u)
    (v : CommandLine.Invocation) :
    (CommandLine.replay t environment v o).printed = [] ∧
    ((CommandLine.replay t environment v o).exitCode? = .none ↔ ∀ reason, u ≠ .malformed reason) ∧
    ∀ reason, u = .malformed reason →
      (CommandLine.replay t environment v o).exitCode? = .some 2 ∧
      (CommandLine.replay t environment v o).reported = ["wlog: invalid YAML in " ++ path ++ ": " ++ reason] := by
  have hresolve : o.resolve t environment = .error (u.at path) := by
    rw [resolve, base, hsource]
    simp only [load_unreadable hfile hread]
    rfl
  have hreplay : CommandLine.replay t environment v o = ⟨t, v.level, [], .error (u.at path)⟩ := by
    rw [CommandLine.replay, hresolve]
  rw [hreplay]
  refine ⟨rfl, ?_, ?_⟩
  · cases u with
    | malformed reason => exact iff_of_false nofun fun h => h reason rfl
    | noValue r => exact iff_of_true rfl nofun
    | undecodable f => exact iff_of_true rfl nofun
  · rintro reason rfl
    exact ⟨rfl, rfl⟩

end Override

/-- A configuration is settled or refused, unless it has no shape or no text where one is wanted. What has
no shape is never refused, and what has no text is never settled. So a replay with a configuration in a
file, if that has both, ends with the exit code of a refusal whenever there are no settings, and tells why.

Values may be nested to any depth here. How deep a machine can follow them, before its stack is used up, is
no part of this. -/
theorem configuration_failures [Reader] (payload : Value) :
    (∀ f, settings payload = .error f → Fails payload f) ∧
    ((∃ r, settings payload = .error (.misfit r)) ↔ ¬ Shaped payload) ∧
    (∀ s, settings payload = .ok s → Readable payload) ∧
    ∀ (t : Tree) (path : Text) (content : Bytes), t.lookup path = .ok (.file content) →
      valueOfContent path content = .ok payload →
      (∀ f, load t path = .error f → Fails payload f) ∧
      ∀ (environment : Option Text) (v : CommandLine.Invocation) (o : Override),
        o.source? environment = .some path → Shaped payload → Readable payload →
        ∀ f, o.resolve t environment = .error f →
          ∃ r : Refusal, f = .refused r ∧
            (CommandLine.replay t environment v o).exitCode? = .some 2 ∧
            (CommandLine.replay t environment v o).printed = [] ∧
            (CommandLine.replay t environment v o).reported = ["wlog: " ++ r.message] := by
  refine ⟨fun f => settings_error, ⟨?_, settings_misfit⟩, fun s => settings_readable, ?_⟩
  · rintro ⟨r, hr⟩
    cases settings_error hr with
    | misfit h => exact h
  · intro t path content hfile hvalue
    refine ⟨fun f => load_error hfile hvalue, ?_⟩
    intro environment v o hsource hshaped hreadable f hf
    have hreplay : CommandLine.replay t environment v o = ⟨t, v.level, [], .error f⟩ := by
      rw [CommandLine.replay, hf]
    cases Override.resolve_error hsource hfile hvalue hf with
    | refused r => exact ⟨r, rfl, by rw [hreplay]; rfl, by rw [hreplay]; rfl, by rw [hreplay]; rfl⟩
    | misfit h => exact absurd hshaped h
    | numeral h => exact absurd hreadable h

-- the file `wlog: x,u`
example : ((CommandLine.run ⟨[], [([[99]], .file [119, 108, 111, 103, 58, 32, 120, 44, 117, 10])]⟩ .none []
    ["replay", "--config", "c"]).map fun o => o.exitCode?).toOption = .some (.some 2) := by decide +kernel

/-- A number in place of a section on the log, as in the file `wlog: 5`, is found out before it could be
refused, and a replay with it has no exit code. -/
theorem number_for_section_escapes :
    settings (.map [(.text wlogField, .int 5)]) = .error (.misfit (.noElements "int")) ∧
      ((CommandLine.run ⟨[], [([[99]], .file [119, 108, 111, 103, 58, 32, 53, 10])]⟩ .none []
        ["replay", "--config", "c"]).map fun o => o.exitCode?).toOption = .some .none := by
  refine ⟨rfl, ?_⟩
  decide +kernel

end RequestLog.Config
