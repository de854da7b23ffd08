/-
How long the bytes are that a text stands for. No token stands for more bytes
than it is written with, so no text grows (`Reading.length_le`). Only a
backslash that ends a text stands for nothing, so a text that does is empty or
that backslash alone (`Reading.eq_nil_iff`). And a token stands for just the
bytes it is written with only if it is a plain byte, so a text that stands for
itself has no escape in it (`Reading.eq_self_iff`).
-/
import RequestLog.Proofs.Cycle
import RequestLog.Proofs.Readings

namespace RequestLog.Escape

/-! ## Tokens -/

namespace Token

theorem length_meaning_le (t : Token) : t.meaning.length ≤ t.spelling.length := by
  cases t with
  | letter l => cases l <;> decide
  | _ => simp [meaning, spelling]

theorem meaning_eq_nil_iff {t : Token} : t.meaning = [] ↔ t = .trailing := by
  cases t with
  | letter l => cases l <;> simp [meaning, Letter.meaning]
  | _ => simp [meaning]

/-- Every token but a plain byte is written with a backslash, and none stands for itself. -/
theorem meaning_eq_spelling_iff {t : Token} : t.meaning = t.spelling ↔ ∃ b, t = .plain b := by
  cases t with
  | letter l => cases l <;> simp [meaning, spelling, Letter.meaning, Letter.byte]
  | octal digits => cases digits <;> simp [meaning, spelling, octalValue]
  | _ => simp [meaning, spelling]

theorem backslash_mem_spelling {t : Token} (h : ∀ b, t ≠ .plain b) : 92 ∈ t.spelling := by
  cases t with
  | plain b => exact absurd rfl (h b)
  | _ => exact List.mem_cons_self

end Token

/-! ## Readings -/

section Readings

variable {ts : List Token} {p : Bytes}

/-- **A text never grows.** -/
theorem Reading.length_le (h : Reading ts p) : (ts.flatMap Token.meaning).length ≤ p.length := by
  induction h with
  | nil => exact Nat.le_refl 0
  | @cons t _ _ _ _ ih =>
    rw [List.flatMap_cons, List.length_append, List.length_append]
    exact Nat.add_le_add t.length_meaning_le ih

theorem Reading.eq_nil_iff (h : Reading ts p) : ts.flatMap Token.meaning = [] ↔ p = [] ∨ p = [92] := by
  constructor
  · intro hnil
    cases h with
    | nil => exact .inl rfl
    | cons hfits hrest =>
      rw [List.flatMap_cons, List.append_eq_nil_iff, Token.meaning_eq_nil_iff] at hnil
      obtain ⟨rfl, _⟩ := hnil
      cases hfits
      exact .inr rfl
  · have hlone : Reading [.trailing] [92] := .cons .trailing .nil
    rintro (rfl | rfl)
    · rw [h.eq_tokens, ← Reading.nil.eq_tokens]
      rfl
    · rw [h.eq_tokens, ← hlone.eq_tokens]
      rfl

/-- **A text stands for itself just if it has no escape.** -/
theorem Reading.eq_self_iff (h : Reading ts p) : ts.flatMap Token.meaning = p ↔ 92 ∉ p := by
  induction h with
  | nil => exact iff_of_true rfl List.not_mem_nil
  | @cons t ts rest hfits hrest ih =>
    rw [List.flatMap_cons, List.mem_append, not_or]
    constructor
    · intro heq
      -- neither part grows, so neither part can make up for what the other loses
      have hlength := congrArg List.length heq
      rw [List.length_append, List.length_append] at hlength
      have htoken := t.length_meaning_le
      have htext := hrest.length_le
      obtain ⟨hself, hmore⟩ := List.append_inj heq (by omega)
      obtain ⟨b, rfl⟩ := Token.meaning_eq_spelling_iff.1 hself
      cases hfits with
      | plain hb => exact ⟨by simpa [Token.spelling] using Ne.symm hb, ih.1 hmore⟩
    · rintro ⟨hself, hmore⟩
      obtain ⟨b, rfl⟩ : ∃ b, t = .plain b := by
        by_contra hnot
        exact hself (Token.backslash_mem_spelling fun b hb => hnot ⟨b, hb⟩)
      rw [ih.2 hmore]
      rfl

end Readings

/-! ## Texts -/

section Texts

variable {raw : Bytes} {source : Text}

theorem length_unescape_le : (unescape raw source).value.length ≤ (readable raw).length := by
  rw [unescape_value]
  exact (reading_tokens _).length_le

theorem unescape_eq_nil_iff : (unescape raw source).value = [] ↔ readable raw = [] ∨ readable raw = [92] := by
  rw [unescape_value]
  exact (reading_tokens _).eq_nil_iff

/-- A text that is not read to its end does not stand for itself, for it has lost its end. -/
theorem unescape_eq_self_iff : (unescape raw source).value = raw ↔ 92 ∉ raw ∧ 0 ∉ raw := by
  have hreading := reading_tokens (readable raw)
  rw [unescape_value]
  constructor
  · intro hself
    have hlength : raw.length ≤ (readable raw).length :=
      (congrArg List.length hself).ge.trans hreading.length_le
    have hall : readable raw = raw := (List.takeWhile_sublist _).eq_of_length_le hlength
    refine ⟨hall ▸ hreading.eq_self_iff.1 (hself.trans hall.symm), ?_⟩
    intro hnul
    simpa using List.takeWhile_eq_self_iff.1 hall 0 hnul
  · rintro ⟨hescape, hnul⟩
    have hall := readable_eq_self hnul
    rw [hall] at hreading
    rw [hall, hreading.eq_self_iff]
    exact hescape

end Texts

/-- **A text stands for no more bytes than it has before its first NUL.** It stands for none just if it
has none there, or a lone backslash; these are the header texts with which a generator gives out a request
that has no header. It stands for itself just if it has neither a backslash nor a NUL. -/
theorem unescape_never_grows (raw : Bytes) (source : Text) :
    let text := raw.takeWhile (· != 0)
    let bytes := (unescape raw source).value
    bytes.length ≤ text.length ∧ (bytes = [] ↔ text = [] ∨ text = [92]) ∧ (bytes = raw ↔ 92 ∉ raw ∧ 0 ∉ raw) ∧
      ∀ (g : Generator) (log : LogFile) (target : Bytes), g.stage = .ready log →
        (Scan.seek log.content g.embedded g.cursor false).found = .some ⟨target, .some raw⟩ →
        ∃ header, g.produce.result = .ok ⟨target, header⟩ ∧ (header = .none ↔ text = [] ∨ text = [92]) := by
  intro text bytes
  refine ⟨length_unescape_le, unescape_eq_nil_iff, unescape_eq_self_iff, ?_⟩
  intro g log target hstage hfound
  rcases hseek : Scan.seek log.content g.embedded g.cursor false with ⟨cursor, wraps, reads, found⟩
  rw [hseek] at hfound
  obtain rfl : found = .some ⟨target, .some raw⟩ := hfound
  obtain ⟨_, _, _, hresult⟩ := Generator.produce_found hstage hseek
  refine ⟨_, hresult, ?_⟩
  have hnone : (unescape raw logSource).value = [] ↔ text = [] ∨ text = [92] := unescape_eq_nil_iff
  simp only [Option.bind_some, ite_eq_left_iff, reduceCtorEq, imp_false, not_not]
  exact hnone

/-- A lone backslash for a header, in a log of one record. -/
theorem unescape_never_grows_loneBackslash :
    let log : LogFile := ⟨"log", [92, 1, 47, 120, 0], false⟩
    let g : Generator := { path := .some "log", embedded := true, stage := .ready log }
    (unescape [92] logSource).value = [] ∧ g.produce.result = .ok ⟨[47, 120], .none⟩ := by
  intro log g
  obtain ⟨_, hnil, _, hproduce⟩ := unescape_never_grows [92] logSource
  have hfound : (Scan.seek log.content g.embedded g.cursor false).found = .some ⟨[47, 120], .some [92]⟩ := by
    decide +kernel
  obtain ⟨header, hresult, hnone⟩ := hproduce g log [47, 120] rfl hfound
  obtain rfl := hnone.2 (.inr rfl)
  exact ⟨hnil.2 (.inr rfl), hresult⟩

end RequestLog.Escape
