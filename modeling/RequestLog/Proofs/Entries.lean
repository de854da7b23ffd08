/-
The lines that a server writes to an access log: fields without white space or
quotes, and a request that may leave out its protocol. A word of a request goes
on to the next space, so that a request without a protocol is closed by a quote
in its last word, and where a quote comes later that one closes it instead.
Then the target has a quote too many; the targets of all other entries are
found as they are (`entries_targets`).
-/
import RequestLog.Proofs.Extraction

namespace RequestLog

/-! ## White space at the end of a line -/

/-- Of a line that begins with no white space, only the white space at its end is lost. -/
theorem Bytes.strip_eq {before after : Bytes} {b : UInt8}
    (hhead : ∀ c ∈ (before ++ b :: after).head?, isSpace c = false) (hb : isSpace b = false) :
    ∃ kept spaces, after = kept ++ spaces ∧ (∀ c ∈ spaces, isSpace c = true) ∧
      strip (before ++ b :: after) = before ++ b :: kept := by
  have hnone : Run isSpace [] (before ++ b :: after) := ⟨nofun, hhead⟩
  have hstart : (before ++ b :: after).dropWhile isSpace = before ++ b :: after := hnone.dropWhile
  -- read from its end, the line goes on with `b` at the latest, which stops the white space
  have hend := run_takeWhile isSpace after.reverse
  have hrun : Run isSpace (after.reverse.takeWhile isSpace)
      (after.reverse.dropWhile isSpace ++ b :: before.reverse) := by
    refine ⟨hend.all, ?_⟩
    intro c hc
    cases hdrop : after.reverse.dropWhile isSpace with
    | nil =>
      rw [hdrop] at hc
      cases hc
      exact hb
    | cons d rest =>
      rw [hdrop] at hc
      cases hc
      exact hend.stop c (by rw [hdrop]; rfl)
  have hreverse : (before ++ b :: after).reverse = after.reverse.takeWhile isSpace ++
      (after.reverse.dropWhile isSpace ++ b :: before.reverse) := by
    rw [← List.append_assoc, List.takeWhile_append_dropWhile]
    simp
  refine ⟨(after.reverse.dropWhile isSpace).reverse, (after.reverse.takeWhile isSpace).reverse, ?_,
    fun c hc => hend.all c (List.mem_reverse.1 hc), ?_⟩
  · rw [← List.reverse_append, List.takeWhile_append_dropWhile, List.reverse_reverse]
  · rw [strip, hstart, hreverse, hrun.dropWhile]
    simp

namespace AccessLog

/-! ## Entries -/

/-- A word without quotes. -/
structure Plain (w : Bytes) : Prop extends Word w where
  noQuote : 34 ∉ w

theorem plain_iff {w : Bytes} : (!w.isEmpty && w.all fun b => !Bytes.isSpace b && b != 34) = true ↔ Plain w := by
  simp only [Bool.and_eq_true, Bool.not_eq_true', List.isEmpty_eq_false_iff, List.all_eq_true, bne_iff_ne]
  constructor
  · rintro ⟨hne, hall⟩
    exact ⟨⟨hne, fun b hb => (hall b hb).1⟩, fun hquote => (hall 34 hquote).2 rfl⟩
  · intro h
    exact ⟨h.some, fun b hb => ⟨h.noSpace b hb, fun heq => h.noQuote (heq ▸ hb)⟩⟩

instance (w : Bytes) : Decidable (Plain w) := decidable_of_iff _ plain_iff

/-- An entry of an access log. What comes after its request is set off by a space. -/
structure Entry where
  host : Bytes
  ident : Bytes
  user : Bytes
  date : Bytes
  method : Bytes
  target : Bytes
  protocol : Option Bytes
  trailing : Bytes
  host_plain : Plain host
  ident_plain : Plain ident
  user_plain : Plain user
  date_open : 93 ∉ date
  method_upper : method ≠ [] ∧ ∀ b ∈ method, 65 ≤ b ∧ b ≤ 90
  target_plain : Plain target
  protocol_plain : ∀ p ∈ protocol, Plain p
  trailing_spaced : ∀ b ∈ trailing.head?, b = 32

namespace Entry

/-- The entry up to the target of its request. -/
def opening (e : Entry) : Bytes :=
  e.host ++ [32] ++ e.ident ++ [32] ++ e.user ++ [32, 91] ++ e.date ++ [93, 32, 34] ++ e.method ++ [32]

/-- The target and the protocol, if there is one. -/
def words (e : Entry) : Bytes :=
  match e.protocol with
  | .none => e.target
  | .some p => e.target ++ 32 :: p

/-- The entry as a line. -/
def line (e : Entry) : Bytes := e.opening ++ e.words ++ 34 :: e.trailing

/-- The target that is found: the one of the entry, with the quote after it if the entry has no protocol
and another quote comes later. -/
def found (e : Entry) : Bytes :=
  if e.protocol = .none ∧ 34 ∈ e.trailing then e.target ++ [34] else e.target

end Entry

section Targets

variable {target tail later : Bytes}

/-! ## The target of an entry -/

/-- A word that is closed by a quote is taken as it is where another quote comes later. -/
theorem hasTarget_quoted (h : Plain target) (htail : ∀ b ∈ tail.head?, b = 32) :
    HasTarget (target ++ [34]) tail (if 34 ∈ tail then target ++ [34] else target) := by
  have hword : Word (target ++ [34]) := by
    refine ⟨by simp, ?_⟩
    intro b hb
    rcases List.mem_append.1 hb with hb | hb
    · exact h.noSpace b hb
    · rw [List.mem_singleton.1 hb]
      rfl
  have hspaced : Spaced tail ↔ 34 ∈ tail := by
    constructor
    · rintro ⟨later, rfl, hquote⟩
      exact List.mem_cons_of_mem 32 hquote
    · intro hquote
      obtain ⟨b, later, rfl⟩ := List.exists_cons_of_ne_nil (List.ne_nil_of_mem hquote)
      obtain rfl := htail b rfl
      exact ⟨later, rfl, by simpa using hquote⟩
  refine ⟨hword, ?_, ?_, ?_⟩
  · intro b hb
    rw [htail b hb]
    rfl
  · intro hs
    rw [if_pos (hspaced.1 hs)]
  · intro hs
    rw [if_neg (mt hspaced.2 hs)]
    exact ⟨h.some, [], rfl, List.not_mem_nil⟩

/-- A word before another that is closed by a quote is a target as it is. -/
theorem hasTarget_spaced (h : Plain target) (hquote : 34 ∈ later) : HasTarget target (32 :: later) target where
  word := h.toWord
  longest := by
    intro b hb
    cases hb
    rfl
  spaced := fun _ => rfl
  quoted := fun hspaced => absurd ⟨later, rfl, hquote⟩ hspaced

theorem Entry.requestLine_opening {w : Bytes} (e : Entry) (h : HasTarget w tail target) :
    RequestLine (e.opening ++ w ++ tail) ⟨e.method, target⟩ :=
  .intro e.host_plain.toWord e.ident_plain.toWord e.user_plain.toWord e.date_open e.method_upper h

/-- An entry reads as a request, whatever white space is at its end. -/
theorem Entry.requestLine (e : Entry) : RequestLine e.line.strip ⟨e.method, e.found⟩ := by
  have hhead : ∀ c ∈ e.line.head?, Bytes.isSpace c = false := by
    intro c hc
    obtain ⟨b, host, hhost⟩ := List.exists_cons_of_ne_nil e.host_plain.some
    have hb := e.host_plain.noSpace b (by rw [hhost]; exact List.mem_cons_self)
    simp only [Entry.line, Entry.opening, hhost, List.cons_append, List.head?_cons, Option.mem_some_iff] at hc
    exact hc ▸ hb
  obtain ⟨kept, spaces, htrailing, hspaces, hstrip⟩ := Bytes.strip_eq hhead rfl
  have hquote : 34 ∈ e.trailing ↔ 34 ∈ kept := by
    have hnone : 34 ∉ spaces := fun hmem => absurd (hspaces 34 hmem) (by decide)
    simp [htrailing, hnone]
  have hkept : ∀ b ∈ kept.head?, b = 32 := by
    intro b hb
    refine e.trailing_spaced b ?_
    rw [htrailing, List.head?_append, Option.mem_def.1 hb]
    rfl
  -- what is lost of the trailing text holds no quote, so `found` is the same with what is kept
  have hline : e.line.strip = e.opening ++ e.words ++ 34 :: kept := hstrip
  rw [hline]
  cases hprotocol : e.protocol with
  | none =>
    have h := e.requestLine_opening (hasTarget_quoted e.target_plain hkept)
    simpa [Entry.words, Entry.found, hprotocol, hquote] using h
  | some p =>
    have hmem : 34 ∈ p ++ 34 :: kept := by simp
    have h := e.requestLine_opening (hasTarget_spaced e.target_plain hmem)
    simpa [Entry.words, Entry.found, hprotocol] using h

theorem Extracts.targetsOf {methods : List Datum} {wanted lines targets : List Bytes} {skipped : List Nat}
    (hwanted : Datum.allBytes methods = .ok wanted) (h : Extracts methods 1 lines targets skipped) :
    AccessLog.targetsOf methods (lines.map .bytes) = ⟨skipped.map .skipped, .ok targets⟩ := by
  obtain ⟨htargets, hskipped⟩ := h.findingsFrom (Datum.allBytes_eq_ok hwanted)
  simp only [AccessLog.targetsOf, hwanted, Datum.bytesOf_bytes, findings, htargets, hskipped]

theorem extracts_entries (es : List Entry) (n : Nat) :
    Extracts [] n (es.map Entry.line) (es.map Entry.found) [] := by
  induction es generalizing n with
  | nil => exact .nil
  | cons e es ih => exact .target e.requestLine (.inl rfl) (ih (n + 1))

end Targets

/-- **The targets of the entries of an access log** are found in their order, and no entry is skipped. A
target is found as it is, unless its entry has no protocol and a quote comes after its request: then
the quote that closes the request is found as part of it. -/
theorem entries_targets (es : List Entry) :
    targetsOf [] (es.map fun e => .bytes e.line) =
      ⟨[], .ok (es.map fun e =>
        if e.protocol = .none ∧ 34 ∈ e.trailing then e.target ++ [34] else e.target)⟩ := by
  have h := (extracts_entries es 1).targetsOf rfl
  rw [List.map_map] at h
  exact h

/-- `h i u [d] "GET /x" 200 "r"` -/
def refererEntry : Entry where
  host := [104]
  ident := [105]
  user := [117]
  date := [100]
  method := [71, 69, 84]
  target := [47, 120]
  protocol := .none
  trailing := [32, 50, 48, 48, 32, 34, 114, 34]
  host_plain := by decide
  ident_plain := by decide
  user_plain := by decide
  date_open := by decide
  method_upper := by simp
  target_plain := by decide
  protocol_plain := nofun
  trailing_spaced := by simp

/-- A referer after a request without a protocol costs the request its end. -/
theorem referer_quote_joins_target :
    (targetsOf [] [.bytes refererEntry.line]).value = .ok [refererEntry.target ++ [34]] ∧
      ¬ ∀ e : Entry, (targetsOf [] [.bytes e.line]).value = .ok [e.target] := by
  have hfound : (targetsOf [] [.bytes refererEntry.line]).value = .ok [refererEntry.target ++ [34]] := rfl
  refine ⟨hfound, ?_⟩
  intro h
  cases hfound.symm.trans (h refererEntry)

end AccessLog

end RequestLog
