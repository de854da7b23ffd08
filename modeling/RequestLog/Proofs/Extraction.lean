/-
What is found in an access log. Each line is blank, a request, or neither; the
targets of the requests that count come in the order of their lines, and a line
that is neither is told of by its number (`access_log_targets`).
-/
import RequestLog.Proofs.RequestPattern

namespace RequestLog

namespace Datum

theorem bytesOf_bytes (bss : List Bytes) : bytesOf (bss.map .bytes) = (bss, .none) := by
  induction bss with
  | nil => rfl
  | cons bs bss ih => simp only [List.map_cons, bytesOf, toBytes, ih]

variable {ds : List Datum}

/-- The bytes of some data and the first that has none say which of it has bytes. -/
theorem bytesOf_spec (ds : List Datum) :
    ((bytesOf ds).2 = .none → ds.map toBytes = (bytesOf ds).1.map .ok) ∧
      ∀ f, (bytesOf ds).2 = .some f → ∃ d ∈ ds, d.toBytes = .error f := by
  induction ds with
  | nil => exact ⟨fun _ => rfl, nofun⟩
  | cons d ds ih =>
    cases hd : d.toBytes with
    | error f => simp [bytesOf, hd]
    | ok bs =>
      simp only [bytesOf, hd, List.map_cons, List.cons.injEq, true_and]
      refine ⟨ih.1, ?_⟩
      intro f hf
      obtain ⟨d', hmem, hfault⟩ := ih.2 f hf
      exact ⟨d', List.mem_cons_of_mem d hmem, hfault⟩

theorem allBytes_eq_ok {bss : List Bytes} (h : allBytes ds = .ok bss) : ds.map toBytes = bss.map .ok := by
  unfold allBytes at h
  split at h
  · rename_i heq
    cases h
    simpa [heq] using (bytesOf_spec ds).1
  · cases h

theorem exists_allBytes (h : ∀ d ∈ ds, ∃ bs, d.toBytes = .ok bs) : ∃ bss, allBytes ds = .ok bss := by
  unfold allBytes
  split
  · exact ⟨_, rfl⟩
  · rename_i f heq
    obtain ⟨d, hd, hf⟩ := (bytesOf_spec ds).2 f (by rw [heq])
    obtain ⟨bs, hbs⟩ := h d hd
    cases hf.symm.trans hbs

theorem allBytes_of_mem {d : Datum} (hd : d ∈ ds) {f : EncodeFault} (h : d.toBytes = .error f) :
    ∃ f', allBytes ds = .error f' := by
  cases hall : allBytes ds with
  | error f' => exact ⟨f', rfl⟩
  | ok bss =>
    have hmem := List.mem_map_of_mem (f := toBytes) hd
    rw [allBytes_eq_ok hall, h] at hmem
    obtain ⟨_, _, hok⟩ := List.mem_map.1 hmem
    cases hok

end Datum

namespace AccessLog

/-- Whether a request is of one of some methods; if there are none, every request is. -/
def Counts (methods : List Datum) (r : Request) : Prop := methods = [] ∨ ∃ m ∈ methods, m.toBytes = .ok r.method

/-- What there is on lines of which the first has a number: the targets of the requests that count, and
the numbers of the lines that are neither blank nor requests. -/
inductive Extracts (methods : List Datum) :
    (number : Nat) → (lines targets : List Bytes) → (skipped : List Nat) → Prop where
  | nil {n : Nat} : Extracts methods n [] [] []
  | blank {n : Nat} {line : Bytes} {lines targets : List Bytes} {skipped : List Nat} (hblank : line.strip = [])
      (hrest : Extracts methods (n + 1) lines targets skipped) : Extracts methods n (line :: lines) targets skipped
  | target {n : Nat} {line : Bytes} {r : Request} {lines targets : List Bytes} {skipped : List Nat}
      (hline : RequestLine line.strip r) (hcounts : Counts methods r)
      (hrest : Extracts methods (n + 1) lines targets skipped) :
      Extracts methods n (line :: lines) (r.target :: targets) skipped
  | other {n : Nat} {line : Bytes} {r : Request} {lines targets : List Bytes} {skipped : List Nat}
      (hline : RequestLine line.strip r) (hcounts : ¬ Counts methods r)
      (hrest : Extracts methods (n + 1) lines targets skipped) : Extracts methods n (line :: lines) targets skipped
  | skipped {n : Nat} {line : Bytes} {lines targets : List Bytes} {skipped : List Nat} (hne : line.strip ≠ [])
      (hline : ∀ r, ¬ RequestLine line.strip r) (hrest : Extracts methods (n + 1) lines targets skipped) :
      Extracts methods n (line :: lines) targets (n :: skipped)

section Lines

variable {methods : List Datum} {wanted lines targets : List Bytes} {skipped : List Nat} {n : Nat} {line : Bytes}
  {r : Request}

theorem counts_iff (hwanted : methods.map Datum.toBytes = wanted.map .ok) :
    Counts methods r ↔ (wanted.isEmpty || wanted.contains r.method) = true := by
  have hempty : methods = [] ↔ wanted = [] := by
    rw [← List.map_eq_nil_iff (f := Datum.toBytes), hwanted, List.map_eq_nil_iff]
  have hmem : (∃ m ∈ methods, m.toBytes = .ok r.method) ↔ r.method ∈ wanted := by
    rw [← List.mem_map, hwanted]
    simp
  rw [Counts, hempty, hmem]
  simp

theorem finding?_blank (h : line.strip = []) : finding? wanted n line = .none := by
  rw [finding?, h]

theorem finding?_request (h : RequestLine line.strip r) :
    finding? wanted n line =
      if wanted.isEmpty || wanted.contains r.method then .some (.target r.target) else .none := by
  unfold finding?
  split
  · rename_i hnil
    exact absurd hnil h.ne_nil
  · rw [request?_eq_some_iff.2 h]

theorem finding?_skipped (hne : line.strip ≠ []) (h : ∀ r, ¬ RequestLine line.strip r) :
    finding? wanted n line = .some (.skipped n) := by
  have hnone : request? line.strip = .none :=
    Option.eq_none_iff_forall_ne_some.2 fun r hr => h r (request?_eq_some_iff.1 hr)
  unfold finding?
  split
  · rename_i hnil
    exact absurd hnil hne
  · rw [hnone]

/-- Lines have what is found on them. -/
theorem Extracts.findingsFrom (hwanted : methods.map Datum.toBytes = wanted.map .ok)
    (h : Extracts methods n lines targets skipped) :
    (findingsFrom wanted n lines).filterMap Finding.target? = targets ∧
      (findingsFrom wanted n lines).filterMap Finding.notice? = skipped.map .skipped := by
  induction h with
  | nil => exact ⟨rfl, rfl⟩
  | blank hblank _ ih =>
    rw [AccessLog.findingsFrom, finding?_blank hblank]
    exact ih
  | target hline hcounts _ ih =>
    rw [AccessLog.findingsFrom, finding?_request hline, if_pos ((counts_iff hwanted).1 hcounts)]
    exact ⟨congrArg (_ :: ·) ih.1, ih.2⟩
  | other hline hcounts _ ih =>
    rw [AccessLog.findingsFrom, finding?_request hline, if_neg fun h => hcounts ((counts_iff hwanted).2 h)]
    exact ih
  | skipped hne hline _ ih =>
    rw [AccessLog.findingsFrom, finding?_skipped hne hline]
    exact ⟨ih.1, congrArg (_ :: ·) ih.2⟩

theorem exists_extracts (methods : List Datum) (n : Nat) (lines : List Bytes) :
    ∃ targets skipped, Extracts methods n lines targets skipped := by
  induction lines generalizing n with
  | nil => exact ⟨[], [], .nil⟩
  | cons line lines ih =>
    obtain ⟨targets, skipped, hrest⟩ := ih (n + 1)
    by_cases hblank : line.strip = []
    · exact ⟨targets, skipped, .blank hblank hrest⟩
    by_cases hline : ∃ r, RequestLine line.strip r
    · obtain ⟨r, hline⟩ := hline
      by_cases hcounts : Counts methods r
      · exact ⟨r.target :: targets, skipped, .target hline hcounts hrest⟩
      · exact ⟨targets, skipped, .other hline hcounts hrest⟩
    · exact ⟨targets, n :: skipped, .skipped hblank (fun r hr => hline ⟨r, hr⟩) hrest⟩

theorem Extracts.words (h : Extracts methods n lines targets skipped) : ∀ target ∈ targets, Word target := by
  induction h with
  | nil => exact nofun
  | blank _ _ ih => exact ih
  | target hline _ _ ih => exact List.forall_mem_cons.2 ⟨hline.target_word, ih⟩
  | other _ _ _ ih => exact ih
  | skipped _ _ _ ih => exact ih

/-- A line that is skipped is told of at the lowest level only. -/
theorem shown_skipped (l : Level) (ns : List Nat) :
    Notice.shown l (ns.map .skipped) =
      if l = .debug then ns.map fun n => "wlog build: skipping line " ++ Text.ofNat n ++ ": not a CLF request"
      else [] := by
  have hadmits : ∀ n ∈ ns.map Notice.skipped, l.admits n.level = decide (l = .debug) := by
    intro n hn
    obtain ⟨_, _, rfl⟩ := List.mem_map.1 hn
    cases l <;> rfl
  rw [Notice.shown, List.filter_congr hadmits]
  split
  · rename_i hl
    rw [List.filter_eq_self.2 fun _ _ => decide_eq_true hl, List.map_map]
    rfl
  · rename_i hl
    rw [List.filter_eq_nil_iff.2 fun _ _ => by simpa using hl]
    rfl

/-- There is only one account of lines. -/
theorem Extracts.unique (hwanted : methods.map Datum.toBytes = wanted.map .ok)
    (h : Extracts methods n lines targets skipped) {us : List Bytes} {ns : List Nat} :
    Extracts methods n lines us ns ↔ us = targets ∧ ns = skipped := by
  constructor
  · intro h'
    obtain ⟨htargets, hskipped⟩ := h.findingsFrom hwanted
    obtain ⟨htargets', hskipped'⟩ := h'.findingsFrom hwanted
    have hinjective : ∀ a b, Notice.skipped a = .skipped b → a = b := fun _ _ => Notice.skipped.inj
    exact ⟨htargets'.symm.trans htargets, (List.map_inj_right hinjective).1 (hskipped'.symm.trans hskipped)⟩
  · rintro ⟨rfl, rfl⟩
    exact h

end Lines

/-- **The targets in an access log** are those of the lines that read as requests, as the pattern finds
them, one for each such line whose method is among some, in order. The other lines that are not blank are
told of by their numbers, at the lowest level. Every target is a word. A method without bytes is a failure. -/
theorem access_log_targets (methods : List Datum) (lines : List Bytes) :
    let found := targetsOf methods (lines.map .bytes)
    (∀ line r, requestPattern.search line (ofGroups? ·.groups) = .some r ↔ RequestLine line r) ∧
    ((∀ m ∈ methods, ∃ bs, m.toBytes = .ok bs) → ∃ targets skipped,
      (∀ us ns, Extracts methods 1 lines us ns ↔ us = targets ∧ ns = skipped) ∧
      found.value = .ok targets ∧
      (∀ l, Notice.shown l found.notices = if l = .debug
        then skipped.map fun n => "wlog build: skipping line " ++ Text.ofNat n ++ ": not a CLF request" else []) ∧
      ∀ target ∈ targets, Word target) ∧
    ∀ m ∈ methods, ∀ f, m.toBytes = .error f → (∃ f', found.value = .error f') ∧ found.notices = [] := by
  intro found
  refine ⟨fun line r => by rw [search_requestPattern, request?_eq_some_iff], ?_, ?_⟩
  · intro hmethods
    obtain ⟨wanted, hwanted⟩ := Datum.exists_allBytes hmethods
    have hbytes := Datum.allBytes_eq_ok hwanted
    have hfound : found = ⟨(findings wanted lines).filterMap Finding.notice?,
        .ok ((findings wanted lines).filterMap Finding.target?)⟩ := by
      simp only [found, targetsOf, hwanted, Datum.bytesOf_bytes]
    obtain ⟨targets, skipped, hextracts⟩ := exists_extracts methods 1 lines
    obtain ⟨htargets, hskipped⟩ := hextracts.findingsFrom hbytes
    refine ⟨targets, skipped, fun us ns => hextracts.unique hbytes, ?_, ?_, hextracts.words⟩
    · rw [hfound, ← htargets]
      rfl
    · intro l
      rw [hfound, ← shown_skipped, ← hskipped]
      rfl
  · intro m hm f hf
    obtain ⟨f', hall⟩ := Datum.allBytes_of_mem hm hf
    simp only [found, targetsOf, hall]
    exact ⟨⟨f', rfl⟩, trivial⟩

/-- `h i u [d] "GET /x"`, a line that is no request, and a blank one. -/
def threeLines : List Bytes :=
  [[104, 32, 105, 32, 117, 32, 91, 100, 93, 32, 34, 71, 69, 84, 32, 47, 120, 34, 10], [106, 10], [10]]

theorem access_log_targets_threeLines :
    (targetsOf [.text "GET"] (threeLines.map .bytes)).value = .ok [[47, 120]] ∧
      Notice.shown .debug (targetsOf [.text "GET"] (threeLines.map .bytes)).notices =
        [Text.ofString "wlog build: skipping line 2: not a CLF request"] := by
  have hmethods : ∀ m ∈ [Datum.text "GET"], ∃ bs, m.toBytes = .ok bs := by
    intro m hm
    rw [List.mem_singleton.1 hm]
    exact ⟨[71, 69, 84], rfl⟩
  have hnone : ∀ r, ¬ RequestLine [106] r := by
    intro r hr
    cases request?_eq_some_iff.2 hr
  have hextracts : Extracts [.text "GET"] 1 threeLines [[47, 120]] [2] :=
    .target (request?_eq_some_iff.1 (show request? _ = .some ⟨[71, 69, 84], [47, 120]⟩ by decide +kernel))
      (.inr ⟨_, List.mem_singleton_self _, rfl⟩) (.skipped (by decide +kernel) hnone (.blank rfl .nil))
  obtain ⟨_, hfound, _⟩ := access_log_targets [.text "GET"] threeLines
  obtain ⟨targets, skipped, hexact, hvalue, hshown, _⟩ := hfound hmethods
  obtain ⟨rfl, rfl⟩ := (hexact _ _).1 hextracts
  exact ⟨hvalue, hshown .debug⟩

end AccessLog

end RequestLog
