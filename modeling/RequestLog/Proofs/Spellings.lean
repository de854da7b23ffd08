/-
Ways to name a log: an option of the command line, a text in its place in a
configuration, and a section with a flag and a file. Each of them is read in a
way of its own, and refused for reasons of its own, but all come to the same
(`Settles`): to the usual settings with the log if there is a path and the
flag is one of the words for one, and else to a refusal (`spellings_agree`).
A configuration comes to the same from a file (`resolve_alone`).
-/
import RequestLog.Proofs.Overriding
import RequestLog.Proofs.Runs

namespace RequestLog.Config

variable {word path : Text} {loop : Bool} {s : Mapping}

/-! ## Words for flags -/

theorem flagOfWord?_eq_true_iff : flagOfWord? word = .some true ↔ word.strip.lower ∈ trueWords := by
  simp only [flagOfWord?, List.contains_iff_mem]
  split
  · rename_i h
    exact iff_of_true rfl h
  · rename_i h
    refine iff_of_false ?_ h
    split <;> nofun

/-- No word stands for both flags. -/
theorem flagOfWord?_eq_false_iff : flagOfWord? word = .some false ↔ word.strip.lower ∈ falseWords := by
  have hdisjoint : ∀ w ∈ falseWords, w ∉ trueWords := by decide
  simp only [flagOfWord?, List.contains_iff_mem]
  split
  · rename_i h
    exact iff_of_false nofun fun hfalse => hdisjoint _ hfalse h
  · split
    · rename_i h
      exact iff_of_true rfl h
    · rename_i h
      exact iff_of_false nofun h

theorem exists_flagOfWord?_iff :
    (∃ loop, flagOfWord? word = .some loop) ↔ word.strip.lower ∈ trueWords ++ falseWords := by
  rw [List.mem_append, ← flagOfWord?_eq_true_iff, ← flagOfWord?_eq_false_iff, Bool.exists_bool, or_comm]

theorem flag_word (which : Flag) (h : flagOfWord? word = .some loop) : flag which (.text word) = .ok loop := by
  simp only [flag, Value.hasText, Value.plain, h, Bool.not_true, Bool.false_eq_true, if_false]

theorem flag_no_word (which : Flag) (h : flagOfWord? word = .none) :
    ∃ r, flag which (.text word) = .error (.refused r) := by
  simp only [flag, Value.hasText, Value.plain, h, Bool.not_true, Bool.false_eq_true, if_false]
  exact ⟨_, rfl⟩

/-! ## The log that is named -/

/-- The log that a word for a flag and a path name, and whether to loop it. -/
def namedLog? (word path : Text) : Option (Bool × Text) :=
  if path = [] then .none else (flagOfWord? word).map fun loop => (loop, path)

theorem namedLog?_eq_some_iff {named : Bool × Text} :
    namedLog? word path = .some named ↔ path ≠ [] ∧ flagOfWord? word = .some named.1 ∧ named.2 = path := by
  unfold namedLog?
  split
  · rename_i h
    exact iff_of_false nofun fun hnamed => hnamed.1 h
  · rename_i h
    obtain ⟨loop, path'⟩ := named
    rw [Option.map_eq_some_iff]
    constructor
    · rintro ⟨loop, hloop, hnamed⟩
      cases hnamed
      exact ⟨h, hloop, rfl⟩
    · rintro ⟨_, hloop, rfl⟩
      exact ⟨loop, hloop, rfl⟩

/-- An option names a log by what is before its first comma, and what is after it. -/
theorem parseOption_named (h : 44 ∉ word) (path : Text) :
    (parseOption (word ++ 44 :: path)).toOption = namedLog? word path := by
  unfold parseOption namedLog?
  rw [List.cutAt_append h]
  cases path with
  | nil => rfl
  | cons c path =>
    rw [if_neg (List.cons_ne_nil c path)]
    cases hflag : flagOfWord? word with
    | none =>
      obtain ⟨r, hr⟩ := flag_no_word .loopOption hflag
      simp only [hr]
      rfl
    | some loop =>
      simp only [flag_word .loopOption hflag]
      rfl

theorem parseOption_without_comma {t : Text} (h : 44 ∉ t) : ∃ r, parseOption t = .error (.refused r) := by
  unfold parseOption
  rw [List.cutAt_of_not_mem h]
  exact ⟨_, rfl⟩

/-! ## What a name comes to -/

/-- What a way to name a log comes to: the usual settings with the log that it names, or a refusal if it
names none. -/
inductive Settles : Option (Bool × Text) → Except Failure Settings → Prop where
  | log (loop : Bool) (path : Text) : Settles (.some (loop, path)) (.ok ⟨path, loop, false, [], .none, 0⟩)
  | nothing (r : Refusal) : Settles .none (.error (.refused r))

/-- Two ways to settings that lead to the same, or both to a refusal. -/
inductive Agree : Except Failure Settings → Except Failure Settings → Prop where
  | settled (s : Settings) : Agree (.ok s) (.ok s)
  | refused (r r' : Refusal) : Agree (.error (.refused r)) (.error (.refused r'))

theorem Agree.eq {s : Settings} {x : Except Failure Settings} (h : Agree (.ok s) x) : x = .ok s := by
  cases h
  rfl

theorem Settles.agree {named : Option (Bool × Text)} {x y : Except Failure Settings} (hx : Settles named x)
    (hy : Settles named y) : Agree x y := by
  cases hx with
  | log loop path =>
    cases hy
    exact .settled _
  | nothing r =>
    cases hy with
    | nothing r' => exact .refused r r'

theorem Settles.ok_iff {named : Option (Bool × Text)} {x : Except Failure Settings} (h : Settles named x)
    {settled : Settings} :
    x = .ok settled ↔ ∃ loop path, named = .some (loop, path) ∧ settled = ⟨path, loop, false, [], .none, 0⟩ := by
  cases h with
  | log loop path =>
    constructor
    · rintro ⟨⟩
      exact ⟨loop, path, rfl, rfl⟩
    · rintro ⟨_, _, ⟨⟩, rfl⟩
      rfl
  | nothing r => exact iff_of_false nofun nofun

theorem Settles.refused {x : Except Failure Settings} (h : Settles .none x) : ∃ r, x = .error (.refused r) := by
  cases h with
  | nothing r => exact ⟨r, rfl⟩

theorem Settles.settled_iff {x : Except Failure Settings} (h : Settles (namedLog? word path) x) {settled : Settings} :
    x = .ok settled ↔
      path ≠ [] ∧ ∃ loop, flagOfWord? word = .some loop ∧ settled = ⟨path, loop, false, [], .none, 0⟩ := by
  rw [h.ok_iff]
  constructor
  · rintro ⟨loop, path', hnamed, rfl⟩
    obtain ⟨hpath, hloop, rfl⟩ := namedLog?_eq_some_iff.1 hnamed
    exact ⟨hpath, loop, hloop, rfl⟩
  · rintro ⟨hpath, loop, hloop, rfl⟩
    exact ⟨loop, path, namedLog?_eq_some_iff.2 ⟨hpath, hloop, rfl⟩, rfl⟩

/-- **There are settings just if a log is named.** -/
theorem Settles.succeeds_iff {x : Except Failure Settings} (h : Settles (namedLog? word path) x) :
    (∃ settled, x = .ok settled) ↔ path ≠ [] ∧ word.strip.lower ∈ trueWords ++ falseWords := by
  rw [← exists_flagOfWord?_iff]
  constructor
  · rintro ⟨settled, hsettled⟩
    obtain ⟨hpath, loop, hloop, -⟩ := h.settled_iff.1 hsettled
    exact ⟨hpath, loop, hloop⟩
  · rintro ⟨hpath, loop, hloop⟩
    exact ⟨_, h.settled_iff.2 ⟨hpath, loop, hloop, rfl⟩⟩

open Override in
theorem settles_option [Reader] (t : Tree) {environment : Option Text} (henvironment : given environment = .none)
    (v : Text) : Settles (parseOption v).toOption (resolve { log := .some v } t environment) := by
  have hbase : base { log := .some v } t environment = .ok [] := by
    simp only [base, source?, henvironment]
    rfl
  rw [resolve_of_base hbase, onto_base _ (.usual rfl)]
  cases hparse : parseOption v with
  | error e =>
    obtain ⟨r, rfl⟩ := parseOption_error hparse
    by_cases hv : v = []
    · subst hv
      exact .nothing .noLog
    · have hchoose : chooseLog { log := .some v } {} = .error (.refused r) := by
        simp [chooseLog, given, Option.filter, hv, hparse, Except.map]
      rw [hchoose]
      exact .nothing r
  | ok named =>
    obtain ⟨loop, path⟩ := named
    have hv : v ≠ [] := by
      rintro rfl
      cases hparse
    have hfile : (Value.text path).isVoid = false := by
      simpa [Value.isVoid] using parseOption_path_ne_nil hparse
    have hchoose : chooseLog { log := .some v } {} = .ok { file := .text path, loop := loop } := by
      simp [chooseLog, given, Option.filter, hv, hparse, Except.map]
    rw [hchoose]
    simp only [Except.bind, hfile, Bool.false_eq_true, if_false]
    exact .log loop path

/-- A section on the log with a word for a flag, and a path, and no flag for embedded headers. -/
structure NamesLog (s : Mapping) (word path : Text) : Prop where
  loop : s.get? (.text loopField) = .some (.text word)
  file : s.get? (.text fileField) = .some (.text path)
  embedded : s.get? (.text embeddedField) = .none

/-- A configuration with nothing but a section on the log. -/
def logOnly (v : Value) : Mapping := [(.text wlogField, v)]

theorem settings_logOnly (v : Value) :
    settings (.map (logOnly v)) = (section? v).bind fun s => settle s .null .null (.int 0) :=
  settings_map _

theorem settings_named {v : Value} (h : section? v = .ok s)
    (hreads : ReadsLog s { file := .text path, loop := loop }) (hpath : path ≠ []) :
    settings (.map (logOnly v)) = .ok ⟨path, loop, false, [], .none, 0⟩ := by
  have hvoid : (Value.text path).isVoid = false := by simpa [Value.isVoid] using hpath
  have hconfiguration : Reads (logOnly v) s { file := .text path, loop := loop } := ⟨h, hreads, rfl, rfl, rfl⟩
  exact hconfiguration.settings hvoid

theorem settles_text (v : Text) : Settles (parseOption v).toOption (settings (.map (logOnly (.text v)))) := by
  cases hparse : parseOption v with
  | error e =>
    obtain ⟨r, rfl⟩ := parseOption_error hparse
    by_cases hv : v = []
    · subst hv
      exact .nothing .fileMissing
    · have hsection : section? (.text v) = .error (.refused r) := by
        simp [section?, Value.isVoid, hv, hparse, Except.map]
      rw [settings_logOnly, hsection]
      exact .nothing r
  | ok named =>
    obtain ⟨loop, path⟩ := named
    have hv : v ≠ [] := by
      rintro rfl
      cases hparse
    have hsection : section? (.text v) = .ok [(.text fileField, .text path), (.text loopField, .bool loop)] := by
      simp [section?, Value.isVoid, hv, hparse, Except.map]
    rw [settings_named hsection ⟨rfl, rfl, rfl⟩ (Override.parseOption_path_ne_nil hparse)]
    exact .log loop path

theorem settles_section (h : NamesLog s word path) :
    Settles (namedLog? word path) (settings (.map (logOnly (.map s)))) := by
  have hfile : s.field fileField = .text path := Mapping.field_of_get? h.file
  unfold namedLog?
  split
  · rename_i hpath
    subst hpath
    have hvoid : (s.field fileField).isVoid = true := by rw [hfile]; rfl
    rw [settings_logOnly, section?_map]
    simp only [Except.bind, settle, hvoid, if_true]
    exact .nothing .fileMissing
  · rename_i hpath
    cases hflag : flagOfWord? word with
    | none =>
      obtain ⟨r, hr⟩ := flag_no_word .loop hflag
      have hvoid : (s.field fileField).isVoid = false := by rw [hfile]; simpa [Value.isVoid] using hpath
      rw [settings_logOnly, section?_map]
      simp only [Except.bind, settle, hvoid, h.loop, Option.getD_some, hr, Bool.false_eq_true, if_false]
      exact .nothing r
    | some loop =>
      have hreads : ReadsLog s { file := .text path, loop := loop } := by
        refine ⟨hfile, ?_, ?_⟩
        · rw [h.loop]
          exact flag_word .loop hflag
        · rw [h.embedded]
          rfl
      rw [settings_named (section?_map s) hreads hpath]
      exact .log loop path

/-- **A configuration in a file comes to the same** as it does by itself, if there are no options. -/
theorem resolve_alone [Reader] {named environment : Option Text} {t : Tree} {path : Text} {content : Bytes}
    {m : Mapping} (hsource : Override.source? { file := named } environment = .some path)
    (hfile : t.lookup path = .ok (.file content)) (hvalue : valueOfContent path content = .ok (.map m)) :
    Override.resolve { file := named } t environment = settings (.map m) := by
  have hload : Override.base { file := named } t environment = checked (.map m) := by
    rw [Override.base, hsource]
    exact load_eq_checked hfile hvalue (.inl rfl)
  have hchecked := settings_checked m
  cases hc : checked (.map m) with
  | error e =>
    rw [hc] at hload hchecked
    rw [Override.resolve_eq_onto, hload, ← hchecked]
    rfl
  | ok c =>
    obtain ⟨s, f, hreads, hown, rfl⟩ := reads_of_checked hc
    have hheaders : headers (.list (f.addHeader.map .text ++ [])) = .ok f.addHeader := by
      rw [List.append_nil, headers_eq_ok_iff]
    have hcalls : callCount (Override.callsOver { file := named } f.numCalls) = .ok f.numCalls :=
      callCount_eq_ok_iff.2 rfl
    rw [Override.resolve_of_base (hload.trans hc), Override.onto_base _ (.loaded path (hreads.normal hown)),
      hreads.settings hown]
    simp only [Override.chooseLog, Override.given, Option.filter_none, Except.bind, hown, Bool.false_eq_true, if_false,
      List.map_nil, hheaders, hcalls, Bool.or_false, Nat.max_zero]

/-- **All ways to name a log agree.** An option of the command line, with no configuration, comes to the same
settings as a configuration with the text of that option in place of its section on the log, or both are refused.
What is before the first comma of the text is a word for a flag, and what is after it is a path: a section with
that flag and that path agrees too. There are settings just if there is a path and the word, without the white
space around it and in lower case, is one of those for true or false. They have that path and that flag, and all
else as usual. And a configuration comes to the same from a file. -/
theorem spellings_agree [Reader] (v : Text) (t : Tree) {environment : Option Text}
    (henvironment : Override.given environment = .none) :
    let byOption := Override.resolve { log := .some v } t environment
    Agree byOption (settings (.map (logOnly (.text v)))) ∧
    (44 ∉ v → ∃ r, byOption = .error (.refused r)) ∧
    (∀ word path, v = word ++ 44 :: path → 44 ∉ word →
      (∀ s, NamesLog s word path → Agree byOption (settings (.map (logOnly (.map s))))) ∧
      ((∃ settled, byOption = .ok settled) ↔ path ≠ [] ∧ word.strip.lower ∈ trueWords ++ falseWords) ∧
      ∀ settled, byOption = .ok settled →
        ∃ loop, settled = ⟨path, loop, false, [], .none, 0⟩ ∧ (loop = true ↔ word.strip.lower ∈ trueWords) ∧
          (loop = false ↔ word.strip.lower ∈ falseWords)) ∧
    ∀ (named environment : Option Text) (path : Text) (content : Bytes) (m : Mapping),
      Override.source? { file := named } environment = .some path → t.lookup path = .ok (.file content) →
      valueOfContent path content = .ok (.map m) →
      Override.resolve { file := named } t environment = settings (.map m) := by
  intro byOption
  have hoption : Settles (parseOption v).toOption byOption := settles_option t henvironment v
  refine ⟨hoption.agree (settles_text v), ?_, ?_, ?_⟩
  · intro hcomma
    obtain ⟨r, hr⟩ := parseOption_without_comma hcomma
    rw [hr] at hoption
    exact hoption.refused
  · rintro word path rfl hword
    rw [parseOption_named hword] at hoption
    refine ⟨fun s hs => hoption.agree (settles_section hs), hoption.succeeds_iff, ?_⟩
    intro settled hsettled
    obtain ⟨-, loop, hloop, rfl⟩ := hoption.settled_iff.1 hsettled
    refine ⟨loop, rfl, ?_, ?_⟩
    · rw [← flagOfWord?_eq_true_iff, hloop, Option.some_inj]
    · rw [← flagOfWord?_eq_false_iff, hloop, Option.some_inj]
  · intro named environment path content m hsource hfile hvalue
    exact resolve_alone hsource hfile hvalue

/-- A word in upper case with spaces around it, and a path with a comma. The file of `unknownKeyTree` has another
field in it. -/
theorem spellings_agree_spacedWord :
    let log : Mapping := [(.text fileField, .text "u,v"), (.text loopField, .text " Y ")]
    let settled : Settings := ⟨"u,v", true, false, [], .none, 0⟩
    Override.resolve { log := .some " Y ,u,v" } unknownKeyTree .none = .ok settled ∧
      settings (.map (logOnly (.text " Y ,u,v"))) = .ok settled ∧
      settings (.map (logOnly (.map log))) = .ok settled ∧
      Override.resolve { file := .some "c" } unknownKeyTree .none =
        settings (.map [(.text wlogField, .text "y,u"), (.int 7, .null)]) := by
  intro log settled
  have henvironment : Override.given .none = .none := rfl
  obtain ⟨htext, -, hparts, hfile⟩ := spellings_agree " Y ,u,v" unknownKeyTree henvironment
  obtain ⟨hsection, hsucceeds, hsettled⟩ := hparts " Y " "u,v" rfl (by decide)
  obtain ⟨settled', hoption⟩ := hsucceeds.2 ⟨by decide, by decide⟩
  obtain ⟨loop, rfl, hloop, -⟩ := hsettled settled' hoption
  obtain rfl := hloop.2 (by decide)
  have hsection' := hsection log ⟨rfl, rfl, rfl⟩
  rw [hoption] at htext hsection'
  refine ⟨hoption, htext.eq, hsection'.eq, ?_⟩
  exact hfile (.some "c") .none "c" unknownKeyContent _ rfl rfl valueOf_unknownKeyContent

end RequestLog.Config
