/-
Reading visible text back. A byte is shown in one of three ways (`Shown`), and
in each of them it can be told from the text which byte it is and where it ends
(`readByte_visibleByte`). So no two byte strings look alike
(`visible_injective`), and nothing of what they hold gets out of the printable
characters of ASCII (`visible_printable`).
-/
import RequestLog.Bytes.Visible

namespace RequestLog

namespace Text

/-! ## Printable text -/

/-- A text of printable ASCII. -/
def Printable (t : Text) : Prop := ∀ c ∈ t, 32 ≤ c ∧ c < 127

instance (t : Text) : Decidable t.Printable := inferInstanceAs (Decidable (∀ c ∈ t, 32 ≤ c ∧ c < 127))

/-- There is no end of a field or of a line in a printable text. -/
theorem Printable.not_mem {t : Text} (h : t.Printable) {c : Nat} (hc : c < 32) : c ∉ t :=
  fun hmem => absurd (h c hmem).1 (Nat.not_le.2 hc)

/-- The number that a hexadecimal digit stands for. -/
def hexValue (c : Nat) : Nat := if c < 58 then c - 48 else c - 87

theorem hexValue_hexDigit {n : Nat} (h : n < 16) : hexValue (hexDigit n) = n := by
  unfold hexValue hexDigit
  split <;> split <;> omega

theorem hex_printable (width n : Nat) : (hex width n).Printable := by
  induction width generalizing n with
  | zero => nofun
  | succ width ih =>
    intro c hc
    rw [hex, List.mem_append, List.mem_singleton] at hc
    obtain hc | rfl := hc
    · exact ih _ c hc
    · have hdigit : n % 16 < 16 := Nat.mod_lt _ (by decide)
      unfold hexDigit
      split <;> omega

end Text

namespace Bytes

open Text (hexDigit hexValue)

/-! ## How bytes are shown -/

/-- The bytes that are shown by a letter, or a sign, of their own. -/
def letters : List (UInt8 × Nat) := [(92, 92), (9, 116), (10, 110), (13, 114)]

/-- How a byte is shown: by its letter, as itself, or by its number. -/
inductive Shown : UInt8 → Text → Prop where
  | letter {b : UInt8} {c : Nat} (h : (b, c) ∈ letters) : Shown b [92, c]
  | plain {b : UInt8} (h : b.toNat ≠ 92) (hprintable : 32 ≤ b.toNat ∧ b.toNat < 127) : Shown b [b.toNat]
  | number (b : UInt8) : Shown b (92 :: 120 :: Text.hex 2 b.toNat)

theorem shown_visibleByte (b : UInt8) : Shown b (visibleByte b) := by
  unfold visibleByte
  split
  · rename_i hb
    exact .letter (by rw [eq_of_beq hb]; decide)
  rename_i hbackslash
  split
  · rename_i hb
    exact .letter (by rw [eq_of_beq hb]; decide)
  split
  · rename_i hb
    exact .letter (by rw [eq_of_beq hb]; decide)
  split
  · rename_i hb
    exact .letter (by rw [eq_of_beq hb]; decide)
  split
  · rename_i hb
    refine .plain ?_ (by simpa [UInt8.le_iff_toNat_le, UInt8.lt_iff_toNat_lt] using hb)
    exact fun heq => hbackslash (beq_iff_eq.2 (UInt8.toNat_inj.1 heq))
  · exact .number b

theorem Shown.printable {b : UInt8} {t : Text} (h : Shown b t) : t.Printable := by
  cases h with
  | letter h =>
    have hletters : ∀ p ∈ letters, Text.Printable [92, p.2] := by decide
    exact hletters _ h
  | plain _ hprintable =>
    intro c hc
    rw [List.eq_of_mem_singleton hc]
    exact hprintable
  | number =>
    intro c hc
    obtain rfl | rfl | hc : c = 92 ∨ c = 120 ∨ c ∈ Text.hex 2 b.toNat := by simpa using hc
    · decide
    · decide
    · exact Text.hex_printable 2 b.toNat c hc

/-- **Bytes are shown in printable ASCII.** -/
theorem visible_printable (bs : Bytes) : (visible bs).Printable := by
  intro c hc
  obtain ⟨b, -, hb⟩ := List.mem_flatMap.1 hc
  exact (shown_visibleByte b).printable c hb

/-! ## Reading them back -/

/-- The byte that is shown by a backslash and what is after it, and the rest of the text. -/
def readEscape : Text → Option (UInt8 × Text)
  | 92 :: rest => .some (92, rest)
  | 116 :: rest => .some (9, rest)
  | 110 :: rest => .some (10, rest)
  | 114 :: rest => .some (13, rest)
  | 120 :: high :: low :: rest => .some (UInt8.ofNat (16 * hexValue high + hexValue low), rest)
  | _ => .none

/-- The first byte that a text shows, and the rest of the text. -/
def readByte : Text → Option (UInt8 × Text)
  | [] => .none
  | c :: rest => if c = 92 then readEscape rest else .some (UInt8.ofNat c, rest)

theorem readEscape_hex (b : UInt8) (rest : Text) :
    readEscape (120 :: Text.hex 2 b.toNat ++ rest) = .some (b, rest) := by
  have hhigh : b.toNat / 16 % 16 < 16 := Nat.mod_lt _ (by decide)
  have hlow : b.toNat % 16 < 16 := Nat.mod_lt _ (by decide)
  have hb : b.toNat < 256 := b.toNat_lt
  have hvalue : 16 * (b.toNat / 16 % 16) + b.toNat % 16 = b.toNat := by omega
  change Option.some (UInt8.ofNat (16 * hexValue (hexDigit (b.toNat / 16 % 16)) + hexValue (hexDigit (b.toNat % 16))),
    rest) = .some (b, rest)
  rw [Text.hexValue_hexDigit hhigh, Text.hexValue_hexDigit hlow, hvalue, UInt8.ofNat_toNat]

/-- **A byte that is shown is read back,** whatever is after it. -/
theorem readByte_visibleByte (b : UInt8) (rest : Text) : readByte (visibleByte b ++ rest) = .some (b, rest) := by
  have hshown := shown_visibleByte b
  generalize visibleByte b = t at hshown
  cases hshown with
  | letter h =>
    simp only [letters, List.mem_cons, Prod.mk.injEq, List.not_mem_nil, or_false] at h
    obtain ⟨rfl, rfl⟩ | ⟨rfl, rfl⟩ | ⟨rfl, rfl⟩ | ⟨rfl, rfl⟩ := h <;> rfl
  | plain h _ => rw [List.singleton_append, readByte, if_neg h, UInt8.ofNat_toNat]
  | number => exact readEscape_hex b rest

theorem visibleByte_ne_nil (b : UInt8) : visibleByte b ≠ [] := by
  intro hnil
  have hread := readByte_visibleByte b []
  rw [hnil] at hread
  cases hread

theorem visibleByte_append_inj {b c : UInt8} {t u : Text} (h : visibleByte b ++ t = visibleByte c ++ u) :
    b = c ∧ t = u := by
  have hread := readByte_visibleByte b t
  rw [h, readByte_visibleByte] at hread
  cases hread
  exact ⟨rfl, rfl⟩

/-- **No two byte strings look alike.** -/
theorem visible_injective : Function.Injective visible := by
  intro bs
  induction bs with
  | nil =>
    intro cs h
    cases cs with
    | nil => rfl
    | cons c cs => exact absurd (List.append_eq_nil_iff.1 h.symm).1 (visibleByte_ne_nil c)
  | cons b bs ih =>
    intro cs h
    cases cs with
    | nil => exact absurd (List.append_eq_nil_iff.1 h).1 (visibleByte_ne_nil b)
    | cons c cs =>
      obtain ⟨rfl, hrest⟩ := visibleByte_append_inj h
      rw [ih hrest]

end Bytes

end RequestLog
