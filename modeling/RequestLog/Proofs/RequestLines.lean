/-
The grammar of a request in a line of an access log, said apart from the
scanner. A word goes as far as there is no white space, so that a target may
hold the quote that closes its request; where no quote comes later, the last
one in the word closes it (`HasTarget`). The scanner finds the request of every
line that reads as one, and of no other (`request?_eq_some_iff`).
-/
import RequestLog.AccessLog
import RequestLog.Proofs.Runs

namespace RequestLog.AccessLog

open Bytes (Run run_takeWhile)

/-! ## The grammar -/

/-- Some bytes without white space. -/
structure Word (w : Bytes) : Prop where
  some : w ≠ []
  noSpace : ∀ b ∈ w, Bytes.isSpace b = false

/-- Whether the quote that closes a request comes after a space, somewhere. -/
def Spaced (tail : Bytes) : Prop := ∃ later, tail = 32 :: later ∧ 34 ∈ later

/-- A word, as long as it can be, and what comes after it have a target: the word, if it is spaced, and
else what the word has before its last quote, if that is not its first byte. -/
structure HasTarget (w tail target : Bytes) : Prop where
  word : Word w
  longest : ∀ b ∈ tail.head?, Bytes.isSpace b = true
  spaced : Spaced tail → target = w
  quoted : ¬ Spaced tail → target ≠ [] ∧ ∃ after, w = target ++ 34 :: after ∧ 34 ∉ after

/-- A line that reads as a request. -/
inductive RequestLine : Bytes → Request → Prop where
  | intro {host ident user date method w tail target : Bytes} (hhost : Word host) (hident : Word ident)
      (huser : Word user) (hdate : 93 ∉ date) (hmethod : method ≠ [] ∧ ∀ b ∈ method, 65 ≤ b ∧ b ≤ 90)
      (htarget : HasTarget w tail target) :
      RequestLine
        (host ++ [32] ++ ident ++ [32] ++ user ++ [32, 91] ++ date ++ [93, 32, 34] ++ method ++ [32] ++ w ++ tail)
        ⟨method, target⟩

/-! ## The scanner -/

theorem isWord_iff {b : UInt8} : isWord b = true ↔ Bytes.isSpace b = false := by simp [isWord]

theorem isUpper_iff {b : UInt8} : isUpper b = true ↔ 65 ≤ b ∧ b ≤ 90 := by simp [isUpper]

section Scanner

variable {p : UInt8 → Bool} {b : UInt8} {bs w tail rest target : Bytes} {r : Request}

theorem after?_eq_some_iff : after? b bs = .some rest ↔ bs = b :: rest := by
  cases bs with
  | nil => simp [after?]
  | cons c bs => by_cases hc : c = b <;> simp [after?, hc]

theorem field?_eq (p : UInt8 → Bool) (bs : Bytes) :
    field? p bs =
      if bs.takeWhile p = [] then .none else (after? 32 (bs.dropWhile p)).map (bs.takeWhile p, ·) := by
  unfold field?
  split
  · rename_i hnil
    rw [if_pos hnil]
  · rename_i hdrop hne
    rw [if_neg hne, hdrop]
    rfl
  · rename_i hne hother
    rw [if_neg hne]
    cases hdrop : bs.dropWhile p with
    | nil => rfl
    | cons c rest =>
      have hc : (c == 32) = false := by simpa using fun heq : c = 32 => hother rest (heq ▸ hdrop)
      simp [after?, hc]

theorem field?_eq_some_iff (hp : p 32 = false) :
    field? p bs = .some (w, rest) ↔ bs = w ++ 32 :: rest ∧ w ≠ [] ∧ ∀ b ∈ w, p b = true := by
  rw [field?_eq]
  constructor
  · intro h
    split at h
    · cases h
    · rename_i hne
      obtain ⟨rest', hafter, heq⟩ := Option.map_eq_some_iff.1 h
      cases heq
      have hbs := List.takeWhile_append_dropWhile (p := p) (l := bs)
      rw [after?_eq_some_iff.1 hafter] at hbs
      exact ⟨hbs.symm, hne, (run_takeWhile p bs).all⟩
  · rintro ⟨rfl, hne, hall⟩
    have hrun : Run p w (32 :: rest) := ⟨hall, fun c hc => by cases hc; exact hp⟩
    rw [hrun.takeWhile, hrun.dropWhile, if_neg hne]
    rfl

theorem skipDate?_eq_some_iff : skipDate? bs = .some rest ↔ ∃ date, bs = 91 :: (date ++ 93 :: rest) ∧ 93 ∉ date := by
  simp only [skipDate?, Option.bind_eq_some_iff, after?_eq_some_iff]
  constructor
  · rintro ⟨bs, rfl, hcut⟩
    by_cases hmem : 93 ∈ bs
    · obtain ⟨date, rest', rfl, hdate⟩ := List.eq_append_cons_of_mem hmem
      rw [List.cutAt_append hdate] at hcut
      cases hcut
      exact ⟨date, rfl, hdate⟩
    · rw [List.cutAt_of_not_mem hmem] at hcut
      cases hcut
  · rintro ⟨date, rfl, hdate⟩
    exact ⟨date ++ 93 :: rest, rfl, by rw [List.cutAt_append hdate]⟩

theorem all_reverse_of_not_mem {c : UInt8} (h : c ∉ w) : ∀ b ∈ w.reverse, (b != c) = true := by
  intro b hb
  simpa using fun heq : b = c => h (heq ▸ List.mem_reverse.1 hb)

theorem upToLastQuote?_of_not_mem (h : 34 ∉ w) : upToLastQuote? w = .none := by
  have hrun : Run (· != 34) w.reverse [] := ⟨all_reverse_of_not_mem h, nofun⟩
  have hnone := hrun.dropWhile
  rw [List.append_nil] at hnone
  rw [upToLastQuote?, hnone]
  rfl

theorem upToLastQuote?_append {before after : Bytes} (h : 34 ∉ after) :
    upToLastQuote? (before ++ 34 :: after) = if before = [] then .none else .some before := by
  have hrun : Run (· != 34) after.reverse (34 :: before.reverse) :=
    ⟨all_reverse_of_not_mem h, fun b hb => by cases hb; rfl⟩
  have hreverse : (before ++ 34 :: after).reverse = after.reverse ++ 34 :: before.reverse := by simp
  rw [upToLastQuote?, hreverse, hrun.dropWhile, List.tail_cons, List.reverse_reverse]
  cases before <;> rfl

/-- The last quote of some bytes. -/
theorem exists_last_quote (h : 34 ∈ w) : ∃ before after, w = before ++ 34 :: after ∧ 34 ∉ after := by
  obtain ⟨after, before, heq, hafter⟩ := List.eq_append_cons_of_mem (List.mem_reverse.2 h)
  refine ⟨before.reverse, after.reverse, ?_, by simpa using hafter⟩
  rw [← List.reverse_reverse w, heq]
  simp

theorem upToLastQuote?_eq_some_iff :
    upToLastQuote? w = .some target ↔ target ≠ [] ∧ ∃ after, w = target ++ 34 :: after ∧ 34 ∉ after := by
  constructor
  · intro h
    by_cases hmem : 34 ∈ w
    · obtain ⟨before, after, rfl, hafter⟩ := exists_last_quote hmem
      rw [upToLastQuote?_append hafter] at h
      split at h
      · cases h
      · rename_i hne
        cases h
        exact ⟨hne, after, rfl, hafter⟩
    · rw [upToLastQuote?_of_not_mem hmem] at h
      cases h
  · rintro ⟨hne, after, rfl, hafter⟩
    rw [upToLastQuote?_append hafter, if_neg hne]

/-- A word that is spaced is a target as it is, and any other as far as its last quote. -/
theorem target?_append (hw : Word w) (htail : ∀ b ∈ tail.head?, Bytes.isSpace b = true) :
    (Spaced tail → target? (w ++ tail) = .some w) ∧ (¬ Spaced tail → target? (w ++ tail) = upToLastQuote? w) := by
  have hrun : Run isWord w tail :=
    ⟨fun b hb => isWord_iff.2 (hw.noSpace b hb), fun b hb => by simp [isWord, htail b hb]⟩
  obtain ⟨b, w, rfl⟩ := List.exists_cons_of_ne_nil hw.some
  unfold target?
  rw [hrun.takeWhile, hrun.dropWhile]
  simp only
  constructor
  · rintro ⟨later, rfl, hquote⟩
    simp [hquote]
  · intro hspaced
    split
    · rename_i later
      rw [if_neg fun h => hspaced ⟨later, rfl, by simpa using h⟩]
    · rfl

theorem target?_eq_some_iff : target? bs = .some target ↔ ∃ w tail, bs = w ++ tail ∧ HasTarget w tail target := by
  constructor
  · intro h
    by_cases hne : bs.takeWhile isWord = []
    · rw [target?, hne] at h
      cases h
    · have hrun := run_takeWhile isWord bs
      have hbs := List.takeWhile_append_dropWhile (p := isWord) (l := bs)
      have hw : Word (bs.takeWhile isWord) := ⟨hne, fun b hb => isWord_iff.1 (hrun.all b hb)⟩
      have htail : ∀ b ∈ (bs.dropWhile isWord).head?, Bytes.isSpace b = true :=
        fun b hb => by simpa [isWord] using hrun.stop b hb
      obtain ⟨hfirst, hsecond⟩ := target?_append hw htail
      rw [hbs] at hfirst hsecond
      refine ⟨_, _, hbs.symm, hw, htail, ?_, ?_⟩
      · intro hspaced
        rw [hfirst hspaced] at h
        cases h
        rfl
      · intro hspaced
        rw [hsecond hspaced] at h
        exact upToLastQuote?_eq_some_iff.1 h
  · rintro ⟨w, tail, rfl, hw, hlongest, hspaced, hquoted⟩
    obtain ⟨hfirst, hsecond⟩ := target?_append hw hlongest
    by_cases h : Spaced tail
    · rw [hfirst h, hspaced h]
    · rw [hsecond h, upToLastQuote?_eq_some_iff]
      exact hquoted h

theorem field?_word : field? isWord bs = .some (w, rest) ↔ bs = w ++ 32 :: rest ∧ Word w := by
  rw [field?_eq_some_iff rfl]
  exact and_congr_right fun _ =>
    ⟨fun h => ⟨h.1, fun b hb => isWord_iff.1 (h.2 b hb)⟩, fun h => ⟨h.some, fun b hb => isWord_iff.2 (h.noSpace b hb)⟩⟩

theorem field?_upper :
    field? isUpper bs = .some (w, rest) ↔ bs = w ++ 32 :: rest ∧ w ≠ [] ∧ ∀ b ∈ w, 65 ≤ b ∧ b ≤ 90 := by
  rw [field?_eq_some_iff rfl]
  simp only [isUpper_iff]

/-- **A line has a request if it reads as one.** -/
theorem request?_eq_some_iff {line : Bytes} : request? line = .some r ↔ RequestLine line r := by
  simp only [request?, Option.bind_eq_bind, Option.bind_eq_some_iff, Prod.exists, field?_word, field?_upper,
    after?_eq_some_iff, skipDate?_eq_some_iff, target?_eq_some_iff]
  constructor
  · rintro ⟨host, _, ⟨rfl, hhost⟩, ident, _, ⟨rfl, hident⟩, user, _, ⟨rfl, huser⟩, _, ⟨date, rfl, hdate⟩, _, rfl,
      _, rfl, method, _, ⟨rfl, hmethod⟩, target, ⟨w, tail, rfl, htarget⟩, heq⟩
    cases heq
    have h := RequestLine.intro hhost hident huser hdate hmethod htarget
    simpa only [List.append_assoc, List.cons_append, List.nil_append] using h
  · rintro ⟨hhost, hident, huser, hdate, hmethod, htarget⟩
    simp only [List.append_assoc, List.cons_append, List.nil_append]
    exact ⟨_, _, ⟨rfl, hhost⟩, _, _, ⟨rfl, hident⟩, _, _, ⟨rfl, huser⟩, _, ⟨_, rfl, hdate⟩, _, rfl, _, rfl,
      _, _, ⟨rfl, hmethod⟩, _, ⟨_, _, rfl, htarget⟩, rfl⟩

theorem RequestLine.ne_nil {line : Bytes} (h : RequestLine line r) : line ≠ [] := by
  rintro rfl
  have hnone : request? [] = .none := rfl
  rw [request?_eq_some_iff.2 h] at hnone
  cases hnone

/-- What is cut off a word, if it is some of it, is a word. -/
theorem RequestLine.target_word {line : Bytes} (h : RequestLine line r) : Word r.target := by
  obtain @⟨-, -, -, -, -, w, tail, target, -, -, -, -, -, hw, -, hspaced, hquoted⟩ := h
  by_cases h : Spaced tail
  · rw [hspaced h]
    exact hw
  · obtain ⟨hne, after, rfl, -⟩ := hquoted h
    exact ⟨hne, fun b hb => hw.noSpace b (List.mem_append_left _ hb)⟩

end Scanner

end RequestLog.AccessLog
