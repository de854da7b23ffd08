/-
The normal form that the checks leave a configuration in. What a configuration
says is read off field by field (`Reads`), and it is accepted just when every
field can be read and there is a file (`Reads.checked`, `reads_of_checked`).
In its normal form every field is there, with the value it stands for
(`Normal`), and such a configuration the checks leave alone. So checking a
configuration a second time makes no difference to it, nor to its settings
(`normal_form_fixed`).
-/
import RequestLog.Proofs.Resolution

namespace RequestLog.Config

/-! ## Fields -/

/-- What a configuration says, field by field. -/
structure Fields where
  file : Value := .null
  loop : Bool := false
  embedded : Bool := false
  addHeader : List Text := []
  numCalls : Option Nat := .none
  verbose : Nat := 0

/-- A number of calls as a value. -/
def callsValue (n : Option Nat) : Value := (n.map fun k => Value.int k).getD .null

/-- The settings that fields stand for, whether or not their file has a text. -/
def Fields.plain (f : Fields) : Settings :=
  ⟨f.file.plain, f.loop, f.embedded, f.addHeader, f.numCalls, f.verbose⟩

/-- The settings that fields stand for, if their file has a text. -/
def Fields.settings (f : Fields) : Except Failure Settings :=
  if f.file.hasText then .ok f.plain else .error .numeralTooLong

theorem texts?_eq_some_iff {vs : List Value} {ts : List Text} : texts? vs = .some ts ↔ vs = ts.map .text := by
  induction vs generalizing ts with
  | nil => cases ts <;> simp [texts?]
  | cons v vs ih =>
    cases v with
    | text t =>
      cases ts with
      | nil => simp [texts?]
      | cons t' ts => simpa [texts?, ← ih] using and_comm
    | _ => cases ts <;> simp [texts?]

theorem headers_eq_ok_iff {v : Value} {ts : List Text} : headers v = .ok ts ↔ v = .list (ts.map .text) := by
  cases v with
  | list vs =>
    rw [Value.list.injEq, ← texts?_eq_some_iff, headers]
    cases texts? vs <;> simp
  | _ => simp [headers]

theorem callCount_eq_ok_iff {v : Value} {n : Option Nat} : callCount v = .ok n ↔ v = callsValue n := by
  cases v with
  | null => cases n <;> simp [callCount, callsValue]
  | int k =>
    cases n with
    | none => rw [callCount]; split <;> simp [callsValue]
    | some n =>
      change _ ↔ Value.int k = Value.int n
      rw [callCount, Value.int.injEq]
      split
      · exact iff_of_false nofun (by omega)
      · rw [Except.ok.injEq, Option.some.injEq]
        omega
  | _ => cases n <;> simp [callCount, callsValue]

/-! ## Other entries -/

def fieldNames : List Text := [wlogField, headerField, callsField, verboseField]

/-- The names of what the checks set in a section on the log. -/
def flagNames : List Text := [loopField, embeddedField]

namespace Mapping

/-- The entries of a mapping under keys that are none of some names. -/
def outside (names : List Text) (m : Mapping) : Mapping :=
  m.filter fun e => match e.1 with
    | .text t => !names.contains t
    | _ => true

variable {names : List Text} {name : Text}

theorem outside_insert (m : Mapping) (h : name ∈ names) (v : Value) :
    (m.insert (.text name) v).outside names = m.outside names := by
  induction m with
  | nil => simp [insert, outside, h]
  | cons e m ih =>
    obtain ⟨k, w⟩ := e
    unfold insert
    split
    · rename_i hk
      obtain rfl := Value.sameKey_text_iff.1 hk
      rw [outside, List.filter_cons_of_neg (by simpa using h), outside, List.filter_cons_of_neg (by simpa using h)]
    · rw [outside, outside, List.filter_cons, List.filter_cons]
      rw [outside, outside] at ih
      rw [ih]

theorem outside_insertNew (m : Mapping) (h : name ∈ names) (v : Value) :
    (m.insertNew (.text name) v).outside names = m.outside names := by
  unfold insertNew
  split
  · rfl
  · exact outside_insert m h v

theorem field_of_get? {m : Mapping} {v : Value} (h : m.get? (.text name) = .some v) : m.field name = v := by
  rw [field, h]
  rfl

end Mapping

/-! ## What a configuration stands for -/

variable {m m' s : Mapping} {f : Fields}

/-- A section on the log that stands for the fields on the log. -/
structure ReadsLog (s : Mapping) (f : Fields) : Prop where
  file : s.field fileField = f.file
  loop : flag .loop ((s.get? (.text loopField)).getD (.bool false)) = .ok f.loop
  embedded : flag .embeddedHeaders ((s.get? (.text embeddedField)).getD (.bool false)) = .ok f.embedded

/-- A configuration, with a section on the log, that stands for fields. Only the file may be void. -/
structure Reads (m s : Mapping) (f : Fields) : Prop where
  wlog : section? (m.field wlogField) = .ok s
  log : ReadsLog s f
  addHeader : headers (headerList (m.field headerField)) = .ok f.addHeader
  numCalls : callCount (m.field callsField) = .ok f.numCalls
  verbose : verbosity (verboseOf m) = .ok f.verbose

/-- With its section read, a configuration has headers and a number of calls left to check. -/
theorem ReadsLog.settle (h : ReadsLog s f) (hfile : f.file.isVoid = false) {v : Value} {n : Nat}
    (hv : verbosity v = .ok n) (header calls : Value) :
    settle s header calls v = (headers (headerList header)).bind fun ts => (callCount calls).bind fun k =>
      Fields.settings { f with addHeader := ts, numCalls := k, verbose := n } := by
  unfold Config.settle Fields.settings Fields.plain
  simp only [h.file, hfile, Bool.false_eq_true, if_false, h.loop, h.embedded, hv, bind, Except.bind]
  cases headers (headerList header) with
  | error e => rfl
  | ok ts =>
  cases callCount calls with
  | error e => rfl
  | ok k => cases f.file.hasText <;> rfl

theorem Reads.settings (h : Reads m s f) (hfile : f.file.isVoid = false) : settings (.map m) = f.settings := by
  rw [settings_map, h.wlog]
  change Config.settle _ _ _ _ = _
  rw [h.log.settle hfile h.verbose, h.addHeader, h.numCalls]
  rfl

/-- What the checks make of a section that stands for fields. -/
def Fields.sectionFrom (f : Fields) (s : Mapping) : Mapping :=
  ((normalSection s).insert (.text loopField) (.bool f.loop)).insert (.text embeddedField) (.bool f.embedded)

/-- What the checks make of a configuration that stands for fields. -/
def Fields.mappingFrom (f : Fields) (m s : Mapping) : Mapping :=
  ((normalOf m s).insert (.text wlogField) (.map (f.sectionFrom s))).insert (.text verboseField) (.int f.verbose)

theorem Reads.checked (h : Reads m s f) (hfile : f.file.isVoid = false) :
    checked (.map m) = .ok (f.mappingFrom m s) := by
  unfold Config.checked
  rw [normalize_eq, h.wlog]
  change (validate (normalOf m s) >>= _) = _
  unfold validate
  simp only [Config.sectionOf_eq (normalOf_wlog m s), normalSection_file, normalSection_loop, normalSection_embedded,
    normalOf_header, normalOf_calls, normalOf_verbose, h.log.file, hfile, h.log.loop, h.log.embedded, h.addHeader,
    h.numCalls, h.verbose, Bool.false_eq_true, if_false, bind, Except.bind, pure, Except.pure]
  rfl

/-- What is accepted stands for fields, and its file is not void. -/
theorem reads_of_checked (h : checked (.map m) = .ok m') :
    ∃ s f, Reads m s f ∧ f.file.isVoid = false ∧ m' = f.mappingFrom m s := by
  have hchecked := h
  unfold checked at h
  obtain ⟨n, hn, h⟩ := bind_eq_ok_iff.1 h
  obtain ⟨c, hc, h⟩ := bind_eq_ok_iff.1 h
  obtain ⟨s, hs, rfl⟩ := map_eq_ok_iff.1 ((normalize_eq m).symm.trans hn)
  obtain ⟨loop, embedded, addHeader, numCalls, verbose, hfile, hloop, hembedded, hheader, hcalls, hverbose, rfl⟩ :=
    validate_ok hc
  rw [Config.sectionOf_eq (normalOf_wlog m s)] at hfile hloop hembedded
  rw [normalSection_file] at hfile
  rw [normalSection_loop] at hloop
  rw [normalSection_embedded] at hembedded
  rw [normalOf_header] at hheader
  rw [normalOf_calls] at hcalls
  rw [normalOf_verbose] at hverbose
  have hreads : Reads m s ⟨s.field fileField, loop, embedded, addHeader, numCalls, verbose⟩ :=
    ⟨hs, ⟨rfl, hloop, hembedded⟩, hheader, hcalls, hverbose⟩
  exact ⟨s, _, hreads, hfile, Except.ok.inj (hchecked.symm.trans (hreads.checked hfile))⟩

/-! ## Configurations in normal form -/

/-- A configuration in which every field has the value it stands for, in the section on the log too. -/
structure Normal (m s : Mapping) (f : Fields) : Prop where
  wlog : m.get? (.text wlogField) = .some (.map s)
  file : s.field fileField = f.file
  isVoid : f.file.isVoid = false
  loop : s.get? (.text loopField) = .some (.bool f.loop)
  embedded : s.get? (.text embeddedField) = .some (.bool f.embedded)
  addHeader : m.get? (.text headerField) = .some (.list (f.addHeader.map .text))
  numCalls : m.get? (.text callsField) = .some (callsValue f.numCalls)
  verbose : m.get? (.text verboseField) = .some (.int f.verbose)

theorem Normal.reads (h : Normal m s f) : Reads m s f where
  wlog := by rw [Mapping.field_of_get? h.wlog, section?_map]
  log := ⟨h.file, by rw [h.loop]; rfl, by rw [h.embedded]; rfl⟩
  addHeader := by rw [Mapping.field_of_get? h.addHeader]; exact headers_eq_ok_iff.2 rfl
  numCalls := callCount_eq_ok_iff.2 (Mapping.field_of_get? h.numCalls)
  verbose := by rw [verboseOf, h.verbose]; exact verbosity_natCast f.verbose

/-- The checks find nothing to change. -/
theorem Normal.mappingFrom (h : Normal m s f) : f.mappingFrom m s = m := by
  have hheader : m.field headerField = .list (f.addHeader.map .text) := Mapping.field_of_get? h.addHeader
  have hsection : normalSection s = s := by
    rw [normalSection, Mapping.insertNew_eq_self h.loop, Mapping.insertNew_eq_self h.embedded]
  have hnormal : normalOf m s = m := by
    simp only [normalOf, hsection, Mapping.insert_eq_self h.wlog, hheader, headerList,
      Mapping.insert_eq_self h.addHeader, Mapping.insertNew_eq_self h.numCalls, Mapping.insertNew_eq_self h.verbose]
  rw [Fields.mappingFrom, Fields.sectionFrom, hnormal, hsection, Mapping.insert_eq_self h.loop,
    Mapping.insert_eq_self h.embedded, Mapping.insert_eq_self h.wlog, Mapping.insert_eq_self h.verbose]

theorem Normal.checked (h : Normal m s f) : checked (.map m) = .ok m := by
  rw [h.reads.checked h.isVoid, h.mappingFrom]

/-- What the checks make of a configuration has the value it stands for in every field. -/
theorem Reads.normal (h : Reads m s f) (hfile : f.file.isVoid = false) :
    Normal (f.mappingFrom m s) (f.sectionFrom s) f where
  wlog := by rw [Fields.mappingFrom, Mapping.get?_insert_other _ (by decide), Mapping.get?_insert_self]
  file := by
    rw [Fields.sectionFrom, Mapping.field_insert_other _ (by decide), Mapping.field_insert_other _ (by decide),
      normalSection_file, h.log.file]
  isVoid := hfile
  loop := by rw [Fields.sectionFrom, Mapping.get?_insert_other _ (by decide), Mapping.get?_insert_self]
  embedded := by rw [Fields.sectionFrom, Mapping.get?_insert_self]
  addHeader := by
    rw [Fields.mappingFrom, Mapping.get?_insert_other _ (by decide), Mapping.get?_insert_other _ (by decide), normalOf,
      Mapping.get?_insertNew_other _ (by decide), Mapping.get?_insertNew_other _ (by decide),
      Mapping.get?_insert_self, Mapping.field_insert_other _ (by decide), headers_eq_ok_iff.1 h.addHeader]
  numCalls := by
    rw [Fields.mappingFrom, Mapping.get?_insert_other _ (by decide), Mapping.get?_insert_other _ (by decide), normalOf,
      Mapping.get?_insertNew_other _ (by decide), Mapping.get?_insertNew_self,
      Mapping.get?_insert_other _ (by decide), Mapping.get?_insert_other _ (by decide)]
    exact congrArg Option.some (callCount_eq_ok_iff.1 h.numCalls)
  verbose := by rw [Fields.mappingFrom, Mapping.get?_insert_self]

/-- The checks leave the entries that they do not know. -/
theorem outside_mappingFrom (f : Fields) (m s : Mapping) :
    (f.mappingFrom m s).outside fieldNames = m.outside fieldNames := by
  rw [Fields.mappingFrom, Mapping.outside_insert _ (by decide), Mapping.outside_insert _ (by decide), normalOf,
    Mapping.outside_insertNew _ (by decide), Mapping.outside_insertNew _ (by decide),
    Mapping.outside_insert _ (by decide), Mapping.outside_insert _ (by decide)]

theorem outside_sectionFrom (f : Fields) (s : Mapping) :
    (f.sectionFrom s).outside flagNames = s.outside flagNames := by
  rw [Fields.sectionFrom, Mapping.outside_insert _ (by decide), Mapping.outside_insert _ (by decide), normalSection,
    Mapping.outside_insertNew _ (by decide), Mapping.outside_insertNew _ (by decide)]

/-! ## Checking twice -/

/-- Settings are the same after the checks as before them, and a failure is. -/
theorem settings_checked (m : Mapping) :
    (checked (.map m)).bind (fun m' => settings (.map m')) = settings (.map m) := by
  cases h : checked (.map m) with
  | ok m' =>
    obtain ⟨s, f, hreads, hfile, rfl⟩ := reads_of_checked h
    rw [hreads.settings hfile]
    exact (hreads.normal hfile).reads.settings hfile
  | error e =>
    unfold checked at h
    unfold settings
    rcases bind_eq_error_iff.1 h with h | ⟨n, hn, h⟩
    · rw [h]
      rfl
    rcases bind_eq_error_iff.1 h with h | ⟨c, _, h⟩
    · rw [hn]
      change _ = (validate n >>= _)
      rw [h]
      rfl
    · cases h

/-- A file with a mapping, or without a value, is checked as the mapping is. -/
theorem load_eq_checked [Reader] {t : Tree} {path : Text} {content : Bytes} {v : Value}
    (hfile : t.lookup path = .ok (.file content)) (hvalue : valueOfContent path content = .ok v)
    (hm : v = .map m ∨ v.isVoid = true ∧ m = []) : load t path = checked (.map m) := by
  obtain ⟨hnot, _⟩ | hload := load_of_value hfile hvalue
  · exact absurd (hm.symm.imp And.left fun h => ⟨m, h⟩) hnot
  have hmap : v.toMappingOrEmpty = .ok m := by
    obtain rfl | ⟨hvoid, rfl⟩ := hm
    · exact Value.toMappingOrEmpty_map m
    · rw [Value.toMappingOrEmpty, if_pos hvoid]
  rw [hload, checked, checked, normalize_map hmap]

/-- **Checking a configuration a second time makes no difference.** What the checks accept comes out in
normal form, with its other entries as they were, and the checks leave it alone from then on. So settings are
the same whether a configuration is checked before or not, and so are failures. -/
theorem normal_form_fixed [Reader] (m : Mapping) :
    (∀ m', checked (.map m) = .ok m' →
      checked (.map m') = .ok m' ∧
      ∃ s₀ s f, Reads m s₀ f ∧ Normal m' s f ∧ m'.outside fieldNames = m.outside fieldNames ∧
        s.outside flagNames = s₀.outside flagNames) ∧
    (checked (.map m)).bind (fun m' => settings (.map m')) = settings (.map m) ∧
    ∀ (t : Tree) (path : Text) (content : Bytes) (v : Value), t.lookup path = .ok (.file content) →
      valueOfContent path content = .ok v → (v = .map m ∨ v.isVoid = true ∧ m = []) →
      load t path = checked (.map m) ∧ (load t path).bind (fun m' => settings (.map m')) = settings (.map m) := by
  refine ⟨?_, settings_checked m, ?_⟩
  · intro m' h
    obtain ⟨s, f, hreads, hfile, rfl⟩ := reads_of_checked h
    have hnormal := hreads.normal hfile
    exact ⟨hnormal.checked, s, f.sectionFrom s, f, hreads, hnormal, outside_mappingFrom f m s, outside_sectionFrom f s⟩
  · intro t path content v hfile hvalue hm
    have hload := load_eq_checked hfile hvalue hm
    exact ⟨hload, by rw [hload, settings_checked]⟩

/-- The content of a file with the lines `wlog: y,u` and `7:`. -/
def unknownKeyContent : Bytes := [119, 108, 111, 103, 58, 32, 121, 44, 117, 10, 55, 58, 10]

/-- A tree with that file, under the name `c`. -/
def unknownKeyTree : Tree := ⟨[], [([[99]], .file unknownKeyContent)]⟩

/-- Whether a value is the one in that file. -/
def isUnknownKeyMapping : Value → Bool
  | .map [(.text a, .text b), (.int n, .null)] => a == wlogField && b == Text.ofString "y,u" && n == 7
  | _ => false

theorem valueOf_unknownKeyContent :
    valueOfContent "c" unknownKeyContent = .ok (.map [(.text wlogField, .text "y,u"), (.int 7, .null)]) := by
  have hread : ((valueOfContent "c" unknownKeyContent).toOption.map isUnknownKeyMapping) = .some true := by
    decide +kernel
  cases hvalue : valueOfContent "c" unknownKeyContent with
  | error e =>
    rw [hvalue] at hread
    cases hread
  | ok v =>
    rw [hvalue] at hread
    have his : isUnknownKeyMapping v = true := Option.some.inj hread
    unfold isUnknownKeyMapping at his
    split at his
    · simp only [Bool.and_eq_true, beq_iff_eq] at his
      obtain ⟨⟨rfl, rfl⟩, rfl⟩ := his
      rfl
    · cases his

theorem normal_form_fixed_unknownKey :
    ∃ m m', valueOfContent "c" unknownKeyContent = .ok (.map m) ∧ checked (.map m) = .ok m' ∧
      checked (.map m') = .ok m' ∧ m'.outside fieldNames = [(.int 7, .null)] ∧
      (load unknownKeyTree "c").bind (fun m' => settings (.map m')) = .ok ⟨"u", true, false, [], .none, 0⟩ := by
  obtain ⟨hfixed, -, hload⟩ := normal_form_fixed [(.text wlogField, .text "y,u"), (.int 7, .null)]
  obtain ⟨hagain, _, _, _, _, _, houtside, _⟩ := hfixed _ rfl
  obtain ⟨-, hsettings⟩ := hload unknownKeyTree "c" _ _ rfl valueOf_unknownKeyContent (.inl rfl)
  exact ⟨_, _, valueOf_unknownKeyContent, rfl, hagain, houtside, hsettings⟩

end RequestLog.Config
