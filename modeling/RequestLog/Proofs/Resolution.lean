/-
What a configuration resolves to. Settings depend on a configuration only
through a few of its fields, each of which is checked in turn
(`settings_map`). What a command line sets in a configuration leaves all other
fields alone, and a verbosity of it raises that of the configuration
(`setVerbose_verbose`).
-/
import RequestLog.Proofs.Refusals

namespace RequestLog

/-! ## Texts of values -/

namespace Text

theorem ofString_ne_nil {s : String} (h : s ≠ "") : ofString s ≠ [] := by simpa [ofString] using h

theorem ofNat_ne_nil (n : Nat) : ofNat n ≠ [] := ofString_ne_nil Nat.repr_ne_empty

theorem ofInt_ne_nil (n : Int) : ofInt n ≠ [] := by
  cases n with
  | ofNat n => exact ofNat_ne_nil n
  | negSucc n =>
    refine ofString_ne_nil ?_
    change "-" ++ _ ≠ ""
    simp

end Text

theorem Binary64.text_ne_nil (x : Binary64) : x.text ≠ [] := by
  cases x with
  | nan => decide
  | infinite s => cases s <;> decide
  | finite s m e =>
    have hlayout : ∀ d g, layout d g ≠ [] := by
      intro d g
      simp only [layout]
      split
      · split
        · simp [Text.ofString]
        · split <;> simp [Text.ofString]
      · simp [Text.ofString]
    simp only [text]
    split
    · simp
    · split
      · decide
      · exact hlayout _ _

namespace Config

namespace Value

/-- What is not void has a text that is not empty. -/
theorem plain_ne_nil {v : Value} (h : v.isVoid = false) : v.plain ≠ [] := by
  cases v with
  | null => cases h
  | bool b =>
    cases b
    · cases h
    · decide
  | int n => exact Text.ofInt_ne_nil n
  | float x => exact x.text_ne_nil
  | text t => simpa [plain, isVoid] using h
  | date d => simp [plain, Date.text, Text.ofString]
  | time t => simp [plain, Timestamp.text, Timestamp.textWith, Text.ofString]
  | list vs => simp [plain, quoted, Text.ofString]
  | map es => simp [plain, quoted]

end Value

/-! ## Settings by the fields they depend on -/

namespace Mapping

variable {m : Mapping} {name : Text}

theorem get?_insertNew_self (m : Mapping) (name : Text) (v : Value) :
    (m.insertNew (.text name) v).get? (.text name) = .some ((m.get? (.text name)).getD v) := by
  unfold insertNew
  split
  · rename_i h
    obtain ⟨w, hw⟩ := Option.isSome_iff_exists.1 h
    rw [hw]; rfl
  · rename_i h
    rw [get?_insert_self, Option.not_isSome_iff_eq_none.1 h]; rfl

theorem field_insertNew_self (m : Mapping) (name : Text) (v : Value) :
    (m.insertNew (.text name) v).field name = (m.get? (.text name)).getD v := by
  rw [field, get?_insertNew_self]; rfl

theorem get?_insertNew_other {other : Text} (m : Mapping) (h : other ≠ name) (v : Value) :
    (m.insertNew (.text name) v).get? (.text other) = m.get? (.text other) :=
  get?_insertNew_of_ne m (mt Value.text.inj h) v

end Mapping

/-- The settings of a section on the log and of the other fields, each checked in turn. -/
def settle (s : Mapping) (header calls verbose : Value) : Except Failure Settings := do
  if (s.field fileField).isVoid then .error (.refused .fileMissing)
  let loop ← flag .loop ((s.get? (.text loopField)).getD (.bool false))
  let embedded ← flag .embeddedHeaders ((s.get? (.text embeddedField)).getD (.bool false))
  let addHeader ← headers (headerList header)
  let numCalls ← callCount calls
  let verbose ← verbosity verbose
  if !(s.field fileField).hasText then .error .numeralTooLong
  return ⟨(s.field fileField).plain, loop, embedded, addHeader, numCalls, verbose⟩

/-- The verbosity in a configuration, which has a usual value. -/
def verboseOf (m : Mapping) : Value := (m.get? (.text verboseField)).getD (.int 0)

/-- A section on the log in its normal form. -/
def normalSection (s : Mapping) : Mapping :=
  (s.insertNew (.text loopField) (.bool false)).insertNew (.text embeddedField) (.bool false)

/-- A configuration in its normal form, by its section on the log. -/
def normalOf (m s : Mapping) : Mapping :=
  let m := m.insert (.text wlogField) (.map (normalSection s))
  let m := m.insert (.text headerField) (headerList (m.field headerField))
  (m.insertNew (.text callsField) .null).insertNew (.text verboseField) (.int 0)

theorem normalize_eq (m : Mapping) : normalize (.map m) = (section? (m.field wlogField)).map (normalOf m) := by
  unfold normalize
  rw [Value.toMappingOrEmpty_map]
  change (section? (m.field wlogField) >>= _) = _
  cases section? (m.field wlogField) <;> rfl

section Normal

variable (m s : Mapping)

theorem normalSection_file : (normalSection s).field fileField = s.field fileField := by
  rw [normalSection, Mapping.field_insertNew_other _ (by decide), Mapping.field_insertNew_other _ (by decide)]

theorem normalSection_loop : (normalSection s).field loopField = (s.get? (.text loopField)).getD (.bool false) := by
  rw [normalSection, Mapping.field_insertNew_other _ (by decide), Mapping.field_insertNew_self]

theorem normalSection_embedded :
    (normalSection s).field embeddedField = (s.get? (.text embeddedField)).getD (.bool false) := by
  rw [normalSection, Mapping.field_insertNew_self, Mapping.get?_insertNew_other _ (by decide)]

theorem normalOf_wlog : (normalOf m s).field wlogField = .map (normalSection s) := by
  rw [normalOf, Mapping.field_insertNew_other _ (by decide), Mapping.field_insertNew_other _ (by decide),
    Mapping.field_insert_other _ (by decide), Mapping.field_insert_self]

theorem normalOf_header : (normalOf m s).field headerField = headerList (m.field headerField) := by
  rw [normalOf, Mapping.field_insertNew_other _ (by decide), Mapping.field_insertNew_other _ (by decide),
    Mapping.field_insert_self, Mapping.field_insert_other _ (by decide)]

theorem normalOf_calls : (normalOf m s).field callsField = m.field callsField := by
  rw [normalOf, Mapping.field_insertNew_other _ (by decide), Mapping.field_insertNew_self,
    Mapping.get?_insert_other _ (by decide), Mapping.get?_insert_other _ (by decide)]
  rfl

theorem normalOf_verbose : (normalOf m s).field verboseField = verboseOf m := by
  rw [normalOf, Mapping.field_insertNew_self, Mapping.get?_insertNew_other _ (by decide),
    Mapping.get?_insert_other _ (by decide), Mapping.get?_insert_other _ (by decide)]
  rfl

end Normal

/-- The checks of a configuration in its normal form, and that its file has a text, settle its fields. -/
theorem validate_normalOf (m s : Mapping) :
    (validate (normalOf m s) >>= fun checked => do
      if !((sectionOf checked.1).field fileField).hasText then .error .numeralTooLong
      return checked.2) =
    settle s (m.field headerField) (m.field callsField) (verboseOf m) := by
  unfold validate settle
  simp only [sectionOf_eq (normalOf_wlog m s), normalSection_file, normalSection_loop, normalSection_embedded,
    normalOf_header, normalOf_calls, normalOf_verbose]
  by_cases hvoid : (s.field fileField).isVoid = true
  · simp only [hvoid, if_true]
    rfl
  rw [if_neg hvoid, if_neg hvoid]
  cases flag .loop ((s.get? (.text loopField)).getD (.bool false)) with
  | error f => rfl
  | ok loop =>
  cases flag .embeddedHeaders ((s.get? (.text embeddedField)).getD (.bool false)) with
  | error f => rfl
  | ok embedded =>
  cases headers (headerList (m.field headerField)) with
  | error f => rfl
  | ok addHeader =>
  cases callCount (m.field callsField) with
  | error f => rfl
  | ok numCalls =>
  cases verbosity (verboseOf m) with
  | error f => rfl
  | ok verbose =>
  have hsection : ∀ (v : Value) (s' : Mapping),
      sectionOf (((normalOf m s).insert (.text wlogField) (.map s')).insert (.text verboseField) v) = s' := by
    intro v s'
    refine sectionOf_eq ?_
    rw [Mapping.field_insert_other _ (by decide), Mapping.field_insert_self]
  have hfile : ∀ v w, (((normalSection s).insert (.text loopField) v).insert (.text embeddedField) w).field fileField =
      s.field fileField := by
    intro v w
    rw [Mapping.field_insert_other _ (by decide), Mapping.field_insert_other _ (by decide), normalSection_file]
  simp only [bind, Except.bind, pure, Except.pure, hsection, hfile]

theorem settings_map (m : Mapping) :
    settings (.map m) =
      (section? (m.field wlogField)).bind fun s =>
        settle s (m.field headerField) (m.field callsField) (verboseOf m) := by
  unfold settings
  rw [normalize_eq]
  cases section? (m.field wlogField) with
  | error f => rfl
  | ok s => exact validate_normalOf m s

/-! ## Verbosities -/

theorem verbosity_natCast (n : Nat) : verbosity (.int n) = .ok n := by
  rw [verbosity, if_neg (by omega)]
  rfl

namespace Override

variable {o : Override} {m : Mapping}

theorem setHeaders_verbose (m : Mapping) : verboseOf (o.setHeaders m) = verboseOf m := by
  rw [verboseOf, setHeaders_get? m (by decide), verboseOf]

theorem setCalls_verbose (m : Mapping) : verboseOf (o.setCalls m) = verboseOf m := by
  rw [verboseOf, setCalls_get? m (by decide), verboseOf]

/-- A verbosity on the command line raises that of a configuration. -/
theorem setVerbose_verbose {n : Nat} (h : verboseOf m = .int n) :
    verboseOf (o.setVerbose m) = .int (max n o.verbose : Nat) := by
  unfold setVerbose
  split
  · rename_i hzero
    rw [h, hzero, Nat.max_zero]
  · have hbefore : (m.field verboseField).integer?.getD 0 = n := by
      unfold verboseOf at h
      unfold Mapping.field
      cases hget : m.get? (.text verboseField) with
      | none =>
        rw [hget] at h
        cases h
        rfl
      | some v =>
        rw [hget] at h
        cases h
        rfl
    rw [verboseOf, Mapping.get?_insert_self, hbefore, Option.getD_some]
    exact congrArg Value.int (by omega)

end Override

end Config

end RequestLog
