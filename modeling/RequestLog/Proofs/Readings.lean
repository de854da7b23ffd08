/-
The escape grammar, said apart from how a text is gone through. A text is read
as tokens one after the other, each of which has to fit what comes after it
(`Token.Fits`). Every text has exactly one reading, which is `tokens` of it
(`reading_iff`), and it stands for what the tokens of its reading mean
(`unescape_exact`).
-/
import Mathlib.Data.List.Forall2
import Mathlib.Data.List.TakeWhile
import Mathlib.Data.Nat.Digits.Defs
import RequestLog.Proofs.Runs
import RequestLog.Proofs.Tokens

namespace RequestLog.Escape

/-! ## The grammar -/

/-- A token as it can stand before the rest of a text. Octal digits are read as far as they go; a
backslash before 8 or 9 leaves the digit in the rest; and one that nothing follows ends the text. -/
inductive Token.Fits : Token → Bytes → Prop where
  | plain {b : UInt8} {rest : Bytes} (hb : b ≠ 92) : Fits (.plain b) rest
  | letter {l : Letter} {rest : Bytes} : Fits (.letter l) rest
  | octal {digits rest : Bytes} (hne : digits ≠ []) (hdigits : ∀ d ∈ digits, 48 ≤ d ∧ d ≤ 55)
      (hrest : ∀ d ∈ rest.head?, ¬ (48 ≤ d ∧ d ≤ 55)) : Fits (.octal digits) rest
  | bareNul {d : UInt8} {rest : Bytes} (hd : d = 56 ∨ d = 57) : Fits .bareNul (d :: rest)
  | unknown {b : UInt8} {rest : Bytes} (hletter : ∀ l : Letter, b ≠ l.byte) (hdigit : ¬ (48 ≤ b ∧ b ≤ 57)) :
      Fits (.unknown b) rest
  | trailing : Fits .trailing []

/-- A reading of a text: tokens, written one after the other, each of which fits what comes after. -/
inductive Reading : List Token → Bytes → Prop where
  | nil : Reading [] []
  | cons {t : Token} {ts : List Token} {rest : Bytes} (hfits : t.Fits rest) (hrest : Reading ts rest) :
      Reading (t :: ts) (t.spelling ++ rest)

/-! ## Tokens fit -/

/-- What follows a backslash is the rest of a token, and what is left after it. -/
theorem escaped_spec (bs : Bytes) :
    (escaped bs).1.spelling ++ (escaped bs).2 = 92 :: bs ∧ (escaped bs).1.Fits (escaped bs).2 := by
  cases bs with
  | nil => exact ⟨rfl, .trailing⟩
  | cons c bs =>
    by_cases hletter : ∃ l : Letter, c = l.byte
    · obtain ⟨l, rfl⟩ := hletter
      rw [escaped_letter]
      exact ⟨rfl, .letter⟩
    by_cases hdigit : 48 ≤ c ∧ c ≤ 57
    · rcases digit_cases hdigit with hoctal | hhigh
      · rw [escaped_octal bs hoctal]
        have hrun := Bytes.run_takeWhile isOctal bs
        refine ⟨congrArg (92 :: c :: ·) List.takeWhile_append_dropWhile, .octal (List.cons_ne_nil _ _) ?_ ?_⟩
        · exact List.forall_mem_cons.2 ⟨hoctal, fun d hd => isOctal_iff.1 (hrun.all d hd)⟩
        · intro d hd hmore
          have hstop := hrun.stop d hd
          rw [isOctal_iff.2 hmore] at hstop
          cases hstop
      · rw [escaped_highDigit bs hhigh]
        exact ⟨rfl, .bareNul hhigh⟩
    · have hunknown : ∀ l : Letter, c ≠ l.byte := fun l hl => hletter ⟨l, hl⟩
      rw [escaped_unknown bs hunknown hdigit]
      exact ⟨rfl, .unknown hunknown hdigit⟩

/-- A run of octal digits ends where a text goes on with something else. -/
theorem span_octal {digits rest : Bytes} (hdigits : ∀ d ∈ digits, 48 ≤ d ∧ d ≤ 55)
    (hrest : ∀ d ∈ rest.head?, ¬ (48 ≤ d ∧ d ≤ 55)) :
    (digits ++ rest).takeWhile isOctal = digits ∧ (digits ++ rest).dropWhile isOctal = rest := by
  have hrun : Bytes.Run isOctal digits rest :=
    ⟨fun d hd => isOctal_iff.2 (hdigits d hd), fun d hd => Bool.eq_false_iff.2 fun h => hrest d hd (isOctal_iff.1 h)⟩
  exact ⟨hrun.takeWhile, hrun.dropWhile⟩

/-- A token that fits what comes after it is the first one there. -/
theorem tokens_spelling {t : Token} {rest : Bytes} (h : t.Fits rest) :
    tokens (t.spelling ++ rest) = t :: tokens rest := by
  have hescaped : ∀ {bs}, escaped bs = (t, rest) → tokens (92 :: bs) = t :: tokens rest := by
    intro bs h
    rw [tokens, if_pos rfl, h]
  cases h with
  | @plain b _ hb =>
    change tokens (b :: rest) = _
    rw [tokens, if_neg hb]
  | letter => exact hescaped (escaped_letter rest _)
  | @octal digits _ hne hdigits hrest =>
    obtain ⟨d, digits, rfl⟩ := List.exists_cons_of_ne_nil hne
    obtain ⟨hd, hdigits⟩ := List.forall_mem_cons.1 hdigits
    obtain ⟨htake, hdrop⟩ := span_octal hdigits hrest
    refine hescaped ?_
    change escaped (d :: (digits ++ rest)) = _
    rw [escaped_octal _ hd, htake, hdrop]
  | bareNul hd => exact hescaped (escaped_highDigit _ hd)
  | unknown hletter hdigit => exact hescaped (escaped_unknown rest hletter hdigit)
  | trailing => exact hescaped rfl

/-! ## Readings -/

theorem reading_tokens (p : Bytes) : Reading (tokens p) p := by
  fun_induction tokens p with
  | case1 => exact .nil
  | case2 bs ih =>
    obtain ⟨hspelling, hfits⟩ := escaped_spec bs
    have hcons := Reading.cons hfits ih
    rwa [hspelling] at hcons
  | case3 b bs hb ih => exact .cons (.plain hb) ih

theorem Reading.eq_tokens {ts : List Token} {p : Bytes} (h : Reading ts p) : ts = tokens p := by
  induction h with
  | nil => rw [tokens]
  | cons hfits _ ih => rw [tokens_spelling hfits, ih]

/-- **A text has one reading.** -/
theorem reading_iff {ts : List Token} {p : Bytes} : Reading ts p ↔ ts = tokens p :=
  ⟨Reading.eq_tokens, fun h => h ▸ reading_tokens p⟩

/-- A text without a NUL is read to its end. -/
theorem readable_eq_self {p : Bytes} (h : 0 ∉ p) : readable p = p := by
  rw [readable, List.takeWhile_eq_self_iff]
  intro d hd
  simpa using fun hzero : d = 0 => h (hzero ▸ hd)

/-! ## What tokens stand for -/

/-- The bytes that a token stands for and the lines that it makes the decoder write. -/
inductive Token.Means (source : Text) : Token → Bytes → List Text → Prop where
  | plain (b : UInt8) : Means source (.plain b) [b] []
  | backslash : Means source (.letter .backslash) [92] []
  | lineFeed : Means source (.letter .lineFeed) [10] []
  | carriageReturn : Means source (.letter .carriageReturn) [13] []
  | newline : Means source (.letter .newline) [13, 10] []
  | octal (digits : Bytes) :
      Means source (.octal digits) [UInt8.ofNat (Nat.ofDigits 8 (digits.reverse.map fun d => d.toNat - 48) % 256)] []
  | bareNul : Means source .bareNul [0] []
  | unknown (b : UInt8) :
      Means source (.unknown b) [b] ["wlog: ignoring unknown escape sequence `\\" ++ b.toNat :: "' in " ++ source]
  | trailing : Means source .trailing [] ["wlog: ignoring trailing backslash in " ++ source]

/-- Digits are worth the less the later they stand. -/
theorem octalValue_reverse (digits : Bytes) :
    octalValue digits.reverse = Nat.ofDigits 8 (digits.map fun d => d.toNat - 48) := by
  induction digits with
  | nil => rfl
  | cons d digits ih =>
    have hlast : octalValue (digits.reverse ++ [d]) = octalValue digits.reverse * 8 + (d.toNat - 48) := by
      simp only [octalValue, List.foldl_append, List.foldl_cons, List.foldl_nil]
    rw [List.reverse_cons, hlast, ih, List.map_cons, Nat.ofDigits_cons]
    omega

theorem octal_meaning (digits : Bytes) :
    (Token.octal digits).meaning =
      [UInt8.ofNat (Nat.ofDigits 8 (digits.reverse.map fun d => d.toNat - 48) % 256)] := by
  rw [← octalValue_reverse, List.reverse_reverse]
  exact congrArg (fun b => [b]) (UInt8.ofNat_mod_size).symm

/-- The lines that a token makes the decoder write, if warnings are shown. -/
def Token.lines (source : Text) (t : Token) : List Text := ((t.notice? source).map Notice.text).toList

theorem Token.means (source : Text) (t : Token) : t.Means source t.meaning (t.lines source) := by
  cases t with
  | plain b => exact .plain b
  | letter l =>
    cases l with
    | backslash => exact .backslash
    | lineFeed => exact .lineFeed
    | carriageReturn => exact .carriageReturn
    | newline => exact .newline
  | octal digits =>
    rw [octal_meaning]
    exact .octal digits
  | bareNul => exact .bareNul
  | unknown b => exact .unknown b
  | trailing => exact .trailing

/-- A token stands for one thing only. -/
theorem Token.Means.eq {source : Text} {t : Token} {p : Bytes × List Text} (h : t.Means source p.1 p.2) :
    p = (t.meaning, t.lines source) := by
  obtain ⟨bs, ls⟩ := p
  cases h with
  | octal digits => rw [octal_meaning]; rfl
  | _ => rfl

theorem Token.forall₂_means_iff {source : Text} {ts : List Token} {parts : List (Bytes × List Text)} :
    List.Forall₂ (fun t p => t.Means source p.1 p.2) ts parts ↔
      parts = ts.map fun t => (t.meaning, t.lines source) := by
  constructor
  · intro h
    induction h with
    | nil => rfl
    | cons hmeans _ ih => rw [List.map_cons, ← hmeans.eq, ← ih]
  · rintro rfl
    rw [List.forall₂_map_right_iff]
    exact List.forall₂_same.2 fun t _ => t.means source

/-- All that a text makes the decoder tell of is a warning. -/
theorem unescape_warns {raw : Bytes} {source : Text} : ∀ n ∈ (unescape raw source).notices, n.level = .warn := by
  rw [unescape_eq]
  intro n hn
  obtain ⟨t, _, hnotice⟩ := List.mem_filterMap.1 hn
  cases t <;> cases hnotice <;> rfl

/-- The lines that a text makes the decoder write are those of its tokens. -/
theorem shown_unescape (raw : Bytes) (source : Text) (l : Level) :
    Notice.shown l (unescape raw source).notices =
      if l.admits .warn then (tokens (readable raw)).flatMap (Token.lines source) else [] := by
  unfold Notice.shown
  cases hl : l.admits .warn with
  | true =>
    have hall : (unescape raw source).notices.filter (l.admits ·.level) = (unescape raw source).notices :=
      List.filter_eq_self.2 fun n hn => by rw [unescape_warns n hn, hl]
    rw [hall, if_pos rfl, unescape_eq, List.map_filterMap, List.filterMap_eq_flatMap_toList]
    rfl
  | false =>
    have hnone : (unescape raw source).notices.filter (l.admits ·.level) = [] :=
      List.filter_eq_nil_iff.2 fun n hn => by simp [unescape_warns n hn, hl]
    rw [hnone]
    rfl

/-- **A text stands for what its tokens stand for.** The text ends at its first NUL and has one reading as
tokens. Its bytes are those of the tokens in order, and at a level that shows warnings the decoder writes
the lines of the tokens in order, and none otherwise. -/
theorem unescape_exact (raw : Bytes) (source : Text) :
    ∃ ts, (∀ us, Reading us (raw.takeWhile (· != 0)) ↔ us = ts) ∧
      ∃ parts : List (Bytes × List Text), List.Forall₂ (fun t p => t.Means source p.1 p.2) ts parts ∧
        (unescape raw source).value = parts.flatMap Prod.fst ∧
        ∀ l : Level, Notice.shown l (unescape raw source).notices =
          if l.admits .warn then parts.flatMap Prod.snd else [] := by
  refine ⟨tokens (readable raw), fun us => reading_iff, _, Token.forall₂_means_iff.2 rfl, ?_, ?_⟩
  · rw [unescape_value, List.flatMap_map]
  · intro l
    rw [shown_unescape, List.flatMap_map]

/-- A text with a token of every kind, cut short by a NUL. -/
theorem unescape_exact_everyKind :
    let raw : Bytes := [65, 92, 92, 92, 97, 92, 114, 92, 110, 92, 49, 48, 49, 92, 56, 92, 113, 92, 0, 65]
    Reading [.plain 65, .letter .backslash, .letter .lineFeed, .letter .carriageReturn, .letter .newline,
        .octal [49, 48, 49], .bareNul, .plain 56, .unknown 113, .trailing] (raw.takeWhile (· != 0)) ∧
      (unescape raw optionSource).value = [65, 92, 10, 13, 13, 10, 65, 0, 56, 113] ∧
      Notice.shown .warn (unescape raw optionSource).notices =
        [Text.ofString "wlog: ignoring unknown escape sequence `\\q' in --add-header",
          Text.ofString "wlog: ignoring trailing backslash in --add-header"] := by
  intro raw
  obtain ⟨ts, hreading, parts, hparts, hvalue, hlines⟩ := unescape_exact raw optionSource
  have hts : ts = tokens (raw.takeWhile (· != 0)) := ((hreading _).1 (reading_tokens _)).symm
  rw [Token.forall₂_means_iff, hts] at hparts
  refine ⟨(hreading _).2 ?_, ?_, ?_⟩
  · rw [hts]
    decide +kernel
  · rw [hvalue, hparts]
    decide +kernel
  · rw [hlines, hparts]
    decide +kernel

end RequestLog.Escape
