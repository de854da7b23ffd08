/-
Calls read back from what a replay prints. A line of a replay has a number, a
target and perhaps headers in it, with a tab between them. Nothing in these
looks like a tab or a line feed, so the fields of a line and the lines of a text
come apart where they were put together (`fields_callLine`, `ended_injective`).
A call of a replay has a target, so there is no more to say of it than its line
does (`Call.same_of_callLine`): replays that print the same text made the same
requests (`replay_unambiguous`).
-/
import RequestLog.Proofs.JoinedHeaders
import RequestLog.Proofs.Verbosity
import RequestLog.Proofs.VisibleText

namespace RequestLog

/-! ## Numerals -/

namespace Text

theorem ofNat_eq_toDigits (n : Nat) : ofNat n = (Nat.toDigits 10 n).map Char.toNat := by
  simp [ofNat, ofString]

theorem ofNat_injective : Function.Injective ofNat := by
  intro m n h
  rw [ofNat_eq_toDigits, ofNat_eq_toDigits] at h
  have hdigits : Nat.toDigits 10 m = Nat.toDigits 10 n :=
    List.map_injective_iff.2 (fun _ _ => Char.toNat_inj.1) h
  calc
    m = Nat.ofDigitChars 10 (Nat.toDigits 10 m) 0 := Nat.ofDigitChars_ten_toDigits.symm
    _ = Nat.ofDigitChars 10 (Nat.toDigits 10 n) 0 := by rw [hdigits]
    _ = n := Nat.ofDigitChars_ten_toDigits

theorem ofNat_digits {n c : Nat} (h : c ∈ ofNat n) : 48 ≤ c ∧ c ≤ 57 := by
  rw [ofNat_eq_toDigits] at h
  obtain ⟨d, hd, rfl⟩ := List.mem_map.1 h
  have hdigit := Nat.isDigit_of_mem_toDigits (by decide) (by decide) hd
  simpa [Char.isDigit, UInt32.le_iff_toNat_le] using hdigit

theorem ofInt_negSucc (n : Nat) : ofInt (.negSucc n) = 45 :: ofNat (n + 1) := by
  change ofString ("-" ++ toString (n + 1)) = _
  simp [ofString, ofNat]

theorem ofInt_injective : Function.Injective ofInt := by
  -- a digit is not a minus sign
  have hsign : ∀ m n, ofNat m ≠ 45 :: ofNat n := by
    intro m n h
    have hminus : 45 ∈ ofNat m := by rw [h]; exact List.mem_cons_self
    have hdigit := ofNat_digits hminus
    omega
  intro m n h
  cases m with
  | ofNat m =>
    cases n with
    | ofNat n => rw [ofNat_injective h]
    | negSucc n => exact absurd (h.trans (ofInt_negSucc n)) (hsign m _)
  | negSucc m =>
    rw [ofInt_negSucc] at h
    cases n with
    | ofNat n => exact absurd h.symm (hsign n _)
    | negSucc n =>
      rw [ofInt_negSucc, List.cons_inj_right] at h
      rw [Nat.succ_injective (ofNat_injective h)]

theorem ofInt_printable (n : Int) : (ofInt n).Printable := by
  intro c hc
  cases n with
  | ofNat n =>
    have hdigit := ofNat_digits (n := n) hc
    omega
  | negSucc n =>
    rw [ofInt_negSucc, List.mem_cons] at hc
    obtain rfl | hc := hc
    · decide
    · have hdigit := ofNat_digits hc
      omega

/-! ## Lines -/

/-- Lines, each with a line feed at its end. -/
def ended (ls : List Text) : Text := ls.flatMap (· ++ [10])

/-- **Lines come apart again** if there is no line feed in them. -/
theorem ended_injective {ls ls' : List Text} (h : ∀ l ∈ ls, 10 ∉ l) (h' : ∀ l ∈ ls', 10 ∉ l)
    (heq : ended ls = ended ls') : ls = ls' := by
  induction ls generalizing ls' with
  | nil =>
    cases ls' with
    | nil => rfl
    | cons l' ls' => simp [ended] at heq
  | cons l ls ih =>
    cases ls' with
    | nil => simp [ended] at heq
    | cons l' ls' =>
      obtain ⟨hl, hls⟩ := List.forall_mem_cons.1 h
      obtain ⟨hl', hls'⟩ := List.forall_mem_cons.1 h'
      have hcut := congrArg (List.cutAt 10) heq
      simp only [ended, List.flatMap_cons, List.append_assoc, List.singleton_append, List.cutAt_append hl,
        List.cutAt_append hl', Prod.mk.injEq, Option.some.injEq] at hcut
      obtain ⟨rfl, hrest⟩ := hcut
      rw [ih hls hls' hrest]

end Text

/-! ## The line of a call -/

/-- Calls that make the same request, with headers or without. -/
structure Call.SameRequest (c c' : Call) : Prop extends c.Same c' where
  headers : c'.headers.isEmpty = c.headers.isEmpty

namespace CommandLine

/-- The fields of a line: what is before the first tab, what is between that and the next one, and what is
after this one if there is one. -/
def fields (line : Text) : Text × Text × Option Text :=
  ((line.cutAt 9).1, ((line.cutAt 9).2.getD []).cutAt 9)

theorem fields_callLine (c : Call) :
    fields (callLine c) = (Text.ofInt c.id, (c.target.getD []).visible,
      if c.headers.isEmpty then .none else .some c.headerBlock.visible) := by
  have hid : 9 ∉ Text.ofInt c.id := (Text.ofInt_printable c.id).not_mem (by decide)
  have htarget : 9 ∉ (c.target.getD []).visible := (Bytes.visible_printable _).not_mem (by decide)
  rw [fields, callLine, List.append_assoc, List.cons_append, List.cutAt_append hid, Option.getD_some]
  split
  · rw [List.append_nil, List.cutAt_of_not_mem htarget]
  · rw [List.cutAt_append htarget]

theorem lineFeed_not_mem_callLine (c : Call) : 10 ∉ callLine c := by
  have hid : 10 ∉ Text.ofInt c.id := (Text.ofInt_printable c.id).not_mem (by decide)
  have hvisible : ∀ bs, 10 ∉ Bytes.visible bs := fun bs => (Bytes.visible_printable bs).not_mem (by decide)
  unfold callLine
  split <;> simp [hid, hvisible]

end CommandLine

open CommandLine

namespace Call

variable {c c' : Call}

/-- What a line says of headers is which bytes they have in one, and whether there are some. -/
theorem headers_of_field (h : (if c.headers.isEmpty then .none else Option.some c.headerBlock.visible) =
    if c'.headers.isEmpty then .none else .some c'.headerBlock.visible) :
    c'.headerBlock = c.headerBlock ∧ c'.headers.isEmpty = c.headers.isEmpty := by
  split at h
  · rename_i hnone
    split at h
    · rename_i hnone'
      rw [headerBlock, headerBlock, List.isEmpty_iff.1 hnone, List.isEmpty_iff.1 hnone']
      exact ⟨rfl, rfl⟩
    · cases h
  · rename_i hsome
    split at h
    · cases h
    · rename_i hsome'
      exact ⟨Bytes.visible_injective (Option.some.inj h).symm, by simp only [hsome, hsome']⟩

/-- **A line tells all of a call that has a target.** -/
theorem sameRequest_iff {target target' : Bytes} (hc : c.target = .some target) (hc' : c'.target = .some target') :
    c.SameRequest c' ↔ callLine c = callLine c' := by
  constructor
  · rintro ⟨hsame, hheaders⟩
    rw [callLine, callLine, hsame.id, hsame.target, hsame.headerBlock, hheaders]
  · intro h
    have hfields := congrArg fields h
    rw [fields_callLine, fields_callLine, hc, hc'] at hfields
    simp only [Option.getD_some, Prod.mk.injEq] at hfields
    obtain ⟨hid, htarget, hheaders⟩ := hfields
    obtain rfl := Bytes.visible_injective htarget
    obtain ⟨hblock, hempty⟩ := headers_of_field hheaders
    exact ⟨⟨Text.ofInt_injective hid.symm, hc'.trans hc.symm, hblock⟩, hempty⟩

end Call

theorem CommandLine.sameRequests_iff {calls calls' : List Call} (h : ∀ c ∈ calls, ∃ target, c.target = .some target)
    (h' : ∀ c ∈ calls', ∃ target, c.target = .some target) :
    List.Forall₂ Call.SameRequest calls calls' ↔ calls.map callLine = calls'.map callLine := by
  induction calls generalizing calls' with
  | nil =>
    cases calls' with
    | nil => exact iff_of_true .nil rfl
    | cons c' calls' => exact iff_of_false nofun nofun
  | cons c calls ih =>
    cases calls' with
    | nil => exact iff_of_false nofun nofun
    | cons c' calls' =>
      obtain ⟨⟨target, hc⟩, hcalls⟩ := List.forall_mem_cons.1 h
      obtain ⟨⟨target', hc'⟩, hcalls'⟩ := List.forall_mem_cons.1 h'
      rw [List.forall₂_cons, Call.sameRequest_iff hc hc', ih hcalls hcalls', List.map_cons, List.map_cons,
        List.cons.injEq]

/-! ## The calls of a replay -/

theorem LogFile.lookup_of_openAt {t : Tree} {path : Text} {log : LogFile} (h : openAt t path = .ok log) :
    ∃ bs, bs ≠ [] ∧ t.lookup path = .ok (.file bs) := by
  unfold openAt at h
  split at h
  · rename_i bs hfile
    split at h
    · cases h
    · rename_i hne
      exact ⟨bs, by simpa using hne, hfile⟩
  all_goals cases h

/-- Every call of a dry run has a target. -/
theorem DryRun.run_targets {t : Tree} {level : Level} {s : Config.Settings} {headers : List Bytes}
    {r : Session.Reply (List Call)} {calls : List Call} (hpath : s.file ≠ [])
    (hends : s.numCalls = .none → s.loop = false) (hrun : run t level s headers = .some r)
    (hcalls : r.result = .ok calls) :
    ∀ c ∈ calls, ∃ target, c.target = .some target := by
  have hresult : ∀ x, (∃ r', run t level s headers = .some r' ∧ r'.result = x) → x = .ok calls := by
    rintro x ⟨r', hr', rfl⟩
    rw [hrun] at hr'
    cases hr'
    exact hcalls
  cases hopen : LogFile.openAt t s.file with
  | error f => cases hresult _ (run_unopened hpath hopen headers)
  | ok log =>
  obtain ⟨bs, hne, hfile⟩ := LogFile.lookup_of_openAt hopen
  by_cases hidle : s.numCalls = .some 0
  · cases hresult _ (run_idle hidle hfile hne headers)
    nofun
  by_cases hnone : Scan.requests s.embedded bs = []
  · cases hresult _ (run_exhausted hidle hfile hne hnone headers)
  obtain ⟨r', calls', hrun', hcalls', -, hfor⟩ := run_calls hends hfile hnone headers
  cases hresult _ ⟨r', hrun', hcalls'⟩
  intro c hc
  obtain ⟨k, hk, hget⟩ := List.mem_iff_getElem.1 hc
  obtain ⟨q, -, hcall⟩ := hfor k hk
  rw [List.getElem?_eq_getElem hk, hget] at hcall
  cases hcall
  exact ⟨q.target, rfl⟩

namespace CommandLine

open Config (Override Settings)

variable {t t' : Tree} {environment environment' : Option Text} {v v' : Invocation} {o o' : Override}
  {token token' : Bytes}

/-- The text on standard output. -/
def Outcome.stdout (o : Outcome) : Text := Text.ended o.printed

theorem Outcome.result_of_exitCode {o : Outcome} (h : o.exitCode? = .some 0) : ∃ ls, o.result = .ok ls := by
  cases hresult : o.result with
  | ok ls => exact ⟨ls, rfl⟩
  | error f =>
    rw [exitCode?, hresult] at h
    exact absurd rfl (exitCodeOf_ne_zero h)

/-- A replay that succeeds prints a line for each of its calls, and they all have targets. -/
theorem replay_printed [Config.Reader] (hv : v.command = .replay o)
    (h : (v.perform t environment token).exitCode? = .some 0) :
    ∃ calls, o.calls t environment = .some (.ok calls) ∧ (v.perform t environment token).printed = calls.map callLine ∧
      ∀ c ∈ calls, ∃ target, c.target = .some target := by
  obtain ⟨ls, hresult⟩ := Outcome.result_of_exitCode h
  have hperform : v.perform t environment token = replay t environment v o := by simp only [Invocation.perform, hv]
  rw [hperform] at hresult ⊢
  obtain ⟨calls, hcalls, rfl⟩ := replay_calls hresult
  refine ⟨calls, hcalls, by rw [Outcome.printed, hresult], ?_⟩
  cases hs : o.resolve t environment with
  | error f =>
    simp only [Override.calls, hs] at hcalls
    cases hcalls
  | ok s =>
    have hends : s.numCalls = .none → s.loop = false := by
      intro hnone
      by_contra hloop
      rw [replay_endless hs (Bool.eq_true_of_not_eq_false hloop) hnone] at hresult
      cases hresult
    simp only [Override.calls, Settings.calls, hs] at hcalls
    split at hcalls
    · cases hcalls
    · obtain ⟨r, hrun, hr⟩ := Option.map_eq_some_iff.1 hcalls
      exact DryRun.run_targets (Override.resolve_file_ne_nil hs) hends hrun hr

/-- **What replays print is not ambiguous.** Two replays that succeed, whatever their options, their
configurations and their logs are, print the same text just if they made the same requests: as many calls, and
each with the number, the target and the header bytes of the other, and with headers at all if the other has
some. For no two byte strings look alike, and all of them are shown in printable ASCII. -/
theorem replay_unambiguous [Config.Reader] (hv : v.command = .replay o) (hv' : v'.command = .replay o')
    (h : (v.perform t environment token).exitCode? = .some 0)
    (h' : (v'.perform t' environment' token').exitCode? = .some 0) :
    (∃ calls calls', o.calls t environment = .some (.ok calls) ∧ o'.calls t' environment' = .some (.ok calls') ∧
      ((v.perform t environment token).stdout = (v'.perform t' environment' token').stdout ↔
        List.Forall₂ Call.SameRequest calls calls')) ∧
    Function.Injective Bytes.visible ∧ ∀ bs, ∀ c ∈ Bytes.visible bs, 32 ≤ c ∧ c < 127 := by
  refine ⟨?_, Bytes.visible_injective, Bytes.visible_printable⟩
  obtain ⟨calls, hcalls, hprinted, htargets⟩ := replay_printed hv h
  obtain ⟨calls', hcalls', hprinted', htargets'⟩ := replay_printed hv' h'
  refine ⟨calls, calls', hcalls, hcalls', ?_⟩
  have hlines : ∀ cs : List Call, ∀ l ∈ cs.map callLine, 10 ∉ l := by
    intro cs l hl
    obtain ⟨c, -, rfl⟩ := List.mem_map.1 hl
    exact lineFeed_not_mem_callLine c
  rw [Outcome.stdout, Outcome.stdout, hprinted, hprinted', sameRequests_iff htargets htargets']
  exact ⟨Text.ended_injective (hlines calls) (hlines calls'), congrArg Text.ended⟩

/-- A header with an escape by a letter and one with the same byte in octal. -/
theorem replay_unambiguous_escapes :
    let replayOf := fun header : Text => { loopedReplay with addHeader := [.some header] }
    let out := fun header =>
      Invocation.perform Session.twoRequests.tree .none [49] ⟨0, false, .replay (replayOf header)⟩
    (out "B\\a").stdout = "1\t/x\tB\\na\n2\t/y\tB\\n\n3\t/x\tB\\na\n" ∧
      ∃ calls calls', (replayOf "B\\a").calls Session.twoRequests.tree .none = .some (.ok calls) ∧
        (replayOf "B\\012").calls Session.twoRequests.tree .none = .some (.ok calls') ∧
        List.Forall₂ Call.SameRequest calls calls' := by
  intro replayOf out
  have hcommand : ∀ header, Invocation.command ⟨0, false, .replay (replayOf header)⟩ = .replay (replayOf header) :=
    fun _ => rfl
  have hcode : ∀ header ∈ [Text.ofString "B\\a", "B\\012"], (out header).exitCode? = .some 0 := by decide +kernel
  have hprinted : (out "B\\a").stdout = "1\t/x\tB\\na\n2\t/y\tB\\n\n3\t/x\tB\\na\n" := by decide +kernel
  have hsame : (out "B\\a").stdout = (out "B\\012").stdout := by decide +kernel
  obtain ⟨⟨calls, calls', hcalls, hcalls', hiff⟩, -⟩ := replay_unambiguous (hcommand "B\\a") (hcommand "B\\012")
    (hcode "B\\a" (by simp)) (hcode "B\\012" (by simp))
  exact ⟨hprinted, calls, calls', hcalls, hcalls', hiff.1 hsame⟩

end CommandLine

end RequestLog
