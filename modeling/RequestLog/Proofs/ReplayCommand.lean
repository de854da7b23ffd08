/-
What the replay command comes to, for all settings. It fails with a code of
its own for each thing that can be wrong, and which of them it tells of does
not depend on anything that is looked at later; otherwise it prints a line
for each call of the dry run (`replay_outcome`). Nothing is printed before a
failure.
-/
import RequestLog.CommandLine.Outcome
import RequestLog.Proofs.DryRuns
import RequestLog.Proofs.Overriding
import RequestLog.Proofs.Words

namespace RequestLog

namespace Config.Settings

/-- What headers that have bytes stand for. -/
def headersOf (hss : List Bytes) : List Bytes := hss.map fun h => (Escape.unescape h Escape.optionSource).value

theorem extraHeaders_value {ts : List Text} {hss : List Bytes} (h : ts.map Text.toBytes = hss.map .ok) :
    (extraHeaders ts).value = .ok (headersOf hss) := by
  induction ts generalizing hss with
  | nil =>
    obtain rfl : hss = [] := by simpa using h.symm
    rfl
  | cons t ts ih =>
    obtain ⟨hs, hss, rfl, hbytes, hrest⟩ := List.map_eq_cons_iff.1 h.symm
    have hdatum : Escape.unescapeDatum (.text t) Escape.optionSource =
        .ok (Escape.unescape hs Escape.optionSource) := by
      simp only [Escape.unescapeDatum, Datum.toBytes, ← hbytes, Except.map]
    simp only [extraHeaders, hdatum, ih hrest.symm, Except.map, headersOf, List.map_cons]

end Config.Settings

namespace CommandLine

open Config (Override Settings)

namespace Outcome

variable {o : Outcome} {code : Int} {f : Failure} {ls : List Text}

/-- A command that printed lines, and in which nothing failed. -/
structure Prints (o : Outcome) (ls : List Text) : Prop where
  exitCode : o.exitCode? = .some 0
  printed : o.printed = ls

/-- A command that failed with a code. It printed nothing, and the failure is the last that it told
of. -/
structure FailsWith (o : Outcome) (code : Int) (f : Failure) : Prop where
  exitCode : o.exitCode? = .some code
  printed : o.printed = []
  last : o.reported.getLast? = .some ("wlog: " ++ f.message)

theorem prints_of_result (h : o.result = .ok ls) : o.Prints ls := ⟨by rw [exitCode?, h], by rw [printed, h]⟩

theorem failsWith_of_result (h : o.result = .error f) (hcode : exitCodeOf f = .some code) : o.FailsWith code f := by
  refine ⟨by rw [exitCode?, h]; exact hcode, by rw [printed, h], ?_⟩
  simp only [reported, closing, h, hcode, Option.isSome_some, if_true, List.getLast?_concat]

end Outcome

/-! ## From a dry run to an outcome -/

section Replay

variable {t : Tree} {environment : Option Text} {v : Invocation} {o : Override} {s : Settings} {level : Level}
  {headers : List Bytes} {bs token : Bytes}

theorem replaySettings_keeps (t : Tree) (level : Level) (s : Settings) :
    (replaySettings t level s).tree = t ∧ (replaySettings t level s).level = level := by
  simp only [replaySettings]
  split
  · exact ⟨rfl, rfl⟩
  · split
    · exact ⟨rfl, rfl⟩
    · split <;> exact ⟨rfl, rfl⟩

theorem replay_tree [Config.Reader] (t : Tree) (environment : Option Text) (v : Invocation) (o : Override) :
    (replay t environment v o).tree = t := by
  unfold replay
  split
  · rfl
  · split
    · rfl
    · exact (replaySettings_keeps ..).1

/-- A replay prints the calls of its dry run or fails as that does. -/
theorem replaySettings_result {r : Session.Reply (List Call)}
    (hx : (Settings.extraHeaders s.addHeader).value = .ok headers) (hr : DryRun.run t level s headers = .some r) :
    (replaySettings t level s).result = r.result.map fun calls => calls.map callLine := by
  simp only [replaySettings, hx, hr]
  cases r.result <;> rfl

/-- A replay without an end in sight is refused. -/
theorem replay_endless [Config.Reader] (hs : o.resolve t environment = .ok s) (hloop : s.loop = true)
    (hcalls : s.numCalls = .none) :
    (replay t environment v o).result = .error (.refused .endless) := by
  simp only [replay, hs, hloop, hcalls, Option.isNone_none, Bool.and_self, if_true]

theorem replay_settings [Config.Reader] (hs : o.resolve t environment = .ok s)
    (hends : s.numCalls = .none → s.loop = false) :
    ∃ level, replay t environment v o = replaySettings t level s := by
  have hend : (s.loop && s.numCalls.isNone) = false := by
    cases hcalls : s.numCalls with
    | none => rw [hends hcalls]; rfl
    | some n => rw [Option.isNone_some, Bool.and_false]
  refine ⟨if 2 ≤ s.verbose && !v.quiet then .debug else v.level, ?_⟩
  simp only [replay, hs, hend, Bool.false_eq_true, if_false]

/-! ## Settings by what is at their path -/

theorem replaySettings_absent {fault : Tree.Fault} (hx : (Settings.extraHeaders s.addHeader).value = .ok headers)
    (hpath : s.file ≠ []) (hfile : t.lookup s.file = .error (.refused fault)) :
    (replaySettings t level s).FailsWith 3 (.cannotOpen s.file fault) := by
  obtain ⟨r, hrun, hres⟩ := DryRun.run_absent hpath hfile headers
  exact Outcome.failsWith_of_result (by rw [replaySettings_result hx hrun, hres]; rfl) rfl

theorem replaySettings_empty (hx : (Settings.extraHeaders s.addHeader).value = .ok headers) (hpath : s.file ≠ [])
    (hfile : t.lookup s.file = .ok (.file [])) : (replaySettings t level s).FailsWith 4 (.emptyLog s.file) := by
  obtain ⟨r, hrun, hres⟩ := DryRun.run_empty hpath hfile headers
  exact Outcome.failsWith_of_result (by rw [replaySettings_result hx hrun, hres]; rfl) rfl

theorem replaySettings_idle (hx : (Settings.extraHeaders s.addHeader).value = .ok headers)
    (hcalls : s.numCalls = .some 0) (hfile : t.lookup s.file = .ok (.file bs)) (hne : bs ≠ []) :
    (replaySettings t level s).Prints [] := by
  obtain ⟨r, hrun, hres⟩ := DryRun.run_idle hcalls hfile hne headers
  exact Outcome.prints_of_result (by rw [replaySettings_result hx hrun, hres]; rfl)

theorem replaySettings_exhausted (hx : (Settings.extraHeaders s.addHeader).value = .ok headers)
    (hcalls : s.numCalls ≠ .some 0) (hfile : t.lookup s.file = .ok (.file bs)) (hne : bs ≠ [])
    (hnone : Scan.requests s.embedded bs = []) : (replaySettings t level s).FailsWith 5 (.noRecords s.file) := by
  obtain ⟨r, hrun, hres⟩ := DryRun.run_exhausted hcalls hfile hne hnone headers
  exact Outcome.failsWith_of_result (by rw [replaySettings_result hx hrun, hres]; rfl) rfl

/-- The line of a call made from a request. -/
def requestLine (headers : List Bytes) (k : Nat) (q : Record) : Text :=
  Text.ofNat (k + 1) ++ 9 :: q.target.visible ++
    if headers ++ q.header.toList = [] then [] else 9 :: Bytes.visible (headers ++ q.header.toList).flatten

theorem callLine_callFor (headers : List Bytes) (k : Nat) (q : Record) :
    callLine (Session.callFor headers k q) = requestLine headers k q := by
  simp only [callLine, requestLine, Session.callFor, Option.getD_some, Call.headerBlock, List.isEmpty_iff]
  rfl

/-- The lines of a replay: as many as there are calls, each for the request whose turn it is. -/
structure ReplayLines (headers : List Bytes) (requests : List Record) (count : Nat) (ls : List Text) : Prop where
  length : ls.length = count
  line : ∀ k < count, ∃ q, requests[k % requests.length]? = .some q ∧ ls[k]? = .some (requestLine headers k q)

theorem replaySettings_lines (hx : (Settings.extraHeaders s.addHeader).value = .ok headers)
    (hends : s.numCalls = .none → s.loop = false) (hfile : t.lookup s.file = .ok (.file bs))
    (hne : Scan.requests s.embedded bs ≠ []) :
    ∃ ls, (replaySettings t level s).Prints ls ∧
      ReplayLines headers (Scan.requests s.embedded bs)
        (Session.callsIssued (Scan.requests s.embedded bs).length s.loop s.numCalls) ls := by
  obtain ⟨r, calls, hrun, hres, hlength, hcalls⟩ := DryRun.run_calls hends hfile hne headers
  refine ⟨calls.map callLine, Outcome.prints_of_result ?_, ?_, ?_⟩
  · rw [replaySettings_result hx hrun, hres]
    rfl
  · rw [List.length_map, hlength]
  · intro k hk
    obtain ⟨q, hq, hcall⟩ := hcalls k (hlength ▸ hk)
    exact ⟨q, hq, by rw [List.getElem?_map, hcall, Option.map_some, callLine_callFor]⟩

/-! ## A replay once and without headers of its own -/

/-- The settings of a log that is replayed once, with no headers but those it embeds. -/
def once (path : Text) (e : Bool) : Settings := ⟨path, false, e, [], .none, 0⟩

theorem ne_nil_of_lookup {path : Text} {node : Tree.Node} (h : t.lookup path = .ok node) : path ≠ [] := by
  intro hnil
  rw [hnil, Generator.lookup_nil] at h
  cases h

/-- The words of a replay of a log, where there is no configuration. -/
theorem run_replayWords [Config.Reader] {path : Text} (hfile : t.lookup path = .ok (.file bs)) (token : Bytes)
    (e : Bool) : ∃ level, run t .none token (replayWords path e) = .ok (replaySettings t level (once path e)) := by
  obtain ⟨level, hreplay⟩ := replay_settings
    (v := ⟨0, false, .replay { log := .some (110 :: 44 :: path), embedded := e }⟩)
    (Override.resolve_log (ne_nil_of_lookup hfile) t e 0) fun _ => rfl
  refine ⟨level, ?_⟩
  rw [run, ofWords_replay, once, ← hreplay]
  rfl

theorem extraHeaders_once (path : Text) (e : Bool) :
    (Settings.extraHeaders (once path e).addHeader).value = .ok [] := rfl

theorem once_empty {path : Text} {e : Bool} (hfile : t.lookup path = .ok (.file [])) :
    (replaySettings t level (once path e)).FailsWith 4 (.emptyLog path) :=
  replaySettings_empty (extraHeaders_once path e) (ne_nil_of_lookup hfile) hfile

theorem once_lines (level : Level) {path : Text} {e : Bool} (hfile : t.lookup path = .ok (.file bs))
    (hne : Scan.requests e bs ≠ []) :
    ∃ ls, (replaySettings t level (once path e)).Prints ls ∧
      ReplayLines [] (Scan.requests e bs) ((Scan.requests e bs).length + 1) ls :=
  replaySettings_lines (extraHeaders_once path e) (fun _ => rfl) hfile hne

/-! ## All replays -/

/-- **What a replay comes to.** Settings of a replay that would never end are refused, whatever is at
the path of the log. Else the log has to be there, and then not to be empty. A replay that is to make
no call prints nothing, whether or not the log has requests; any other needs one. A log with requests
is replayed with a line for each call, in order: one more than there are requests, or the number
asked for if that is smaller or the log is looped. No file is changed. -/
theorem replay_outcome [Config.Reader] {hss : List Bytes} (token : Bytes) (hv : v.command = .replay o)
    (hs : o.resolve t environment = .ok s) (hheaders : s.addHeader.map Text.toBytes = hss.map .ok) :
    let out := v.perform t environment token
    out.tree = t ∧
    (s.loop = true → s.numCalls = .none → out.FailsWith 2 (.refused .endless)) ∧
    ((s.numCalls = .none → s.loop = false) →
      (∀ fault, t.lookup s.file = .error (.refused fault) → out.FailsWith 3 (.cannotOpen s.file fault)) ∧
      (t.lookup s.file = .ok (.file []) → out.FailsWith 4 (.emptyLog s.file)) ∧
      ∀ bs, t.lookup s.file = .ok (.file bs) → bs ≠ [] →
        let requests := Scan.requests s.embedded bs
        (s.numCalls = .some 0 → out.Prints []) ∧
        (s.numCalls ≠ .some 0 → requests = [] → out.FailsWith 5 (.noRecords s.file)) ∧
        (requests ≠ [] → ∃ ls, out.Prints ls ∧
          ReplayLines (Settings.headersOf hss) requests
            (Session.callsIssued requests.length s.loop s.numCalls) ls)) := by
  have hperform : v.perform t environment token = replay t environment v o := by simp only [Invocation.perform, hv]
  have hx := Settings.extraHeaders_value hheaders
  have hpath := Override.resolve_file_ne_nil hs
  simp only [hperform]
  refine ⟨replay_tree .., ?_, ?_⟩
  · intro hloop hcalls
    exact Outcome.failsWith_of_result (replay_endless hs hloop hcalls) rfl
  · intro hends
    obtain ⟨level, hreplay⟩ := replay_settings (v := v) hs hends
    rw [hreplay]
    refine ⟨fun fault hfile => replaySettings_absent hx hpath hfile, replaySettings_empty hx hpath, ?_⟩
    intro bs hfile hne
    refine ⟨?_, ?_, ?_⟩
    · exact fun hcalls => replaySettings_idle hx hcalls hfile hne
    · exact fun hcalls hnone => replaySettings_exhausted hx hcalls hfile hne hnone
    · exact fun hsome => replaySettings_lines hx hends hfile hsome

/-- A looped replay of three calls, with a header of its own. -/
def loopedReplay : Override :=
  { log := .some "y,log", embedded := true, addHeader := [.some "B\\a"], numCalls := .some (.some 3) }

theorem resolve_loopedReplay :
    loopedReplay.resolve Session.twoRequests.tree .none = .ok ⟨"log", true, true, ["B\\a"], .some 3, 0⟩ :=
  rfl

theorem replay_outcome_looped :
    let out := Invocation.perform Session.twoRequests.tree .none [49] ⟨0, false, .replay loopedReplay⟩
    ∃ ls, out.Prints ls ∧ ls.length = 3 ∧ ls[2]? = .some (Text.ofString "3\t/x\tB\\na") := by
  intro out
  have hheaders : [Text.ofString "B\\a"].map Text.toBytes = [[66, 92, 97]].map .ok := rfl
  have hdecoded : Settings.headersOf [[66, 92, 97]] = [[66, 10]] := by decide +kernel
  have hline : requestLine [[66, 10]] 2 ⟨[47, 120], .some [97]⟩ = "3\t/x\tB\\na" := by decide +kernel
  obtain ⟨_, _, hends⟩ := replay_outcome (v := ⟨0, false, .replay loopedReplay⟩) [49] rfl resolve_loopedReplay hheaders
  obtain ⟨_, _, hfile⟩ := hends nofun
  obtain ⟨_, _, hcalls⟩ := hfile [0, 97, 1, 47, 120, 0, 0, 47, 121] rfl (List.cons_ne_nil _ _)
  rw [Session.requests_twoRequests, hdecoded] at hcalls
  obtain ⟨ls, hprints, hlines⟩ := hcalls (List.cons_ne_nil _ _)
  obtain ⟨q, hq, hthird⟩ := hlines.line 2 (Nat.lt_succ_self 2)
  cases hq
  exact ⟨ls, hprints, hlines.length, hthird.trans (congrArg Option.some hline)⟩

end Replay

end CommandLine

end RequestLog
