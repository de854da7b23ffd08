/-
Texts and their bytes. A text has bytes unless it holds a surrogate that
stands for none (`toBytes_eq_ok_iff`), and what is read without fail, with
stray bytes as surrogates, has the bytes that it was read from
(`encoded_decodeEscaped`). A byte below 0x80 among the bytes of a text is a
character of its own (`charBytes_low`).
-/
import RequestLog.Proofs.Outcomes
import RequestLog.Utf8

namespace RequestLog

namespace Text

/-- A code point that has bytes: a character, or a surrogate that stands for a byte. -/
structure HasBytes (c : Nat) : Prop where
  le : c ≤ 0x10FFFF
  escaped : isSurrogate c = true → isEscapedByte c = true

/-- The bytes of a text all of whose code points have some. -/
def encoded (t : Text) : Bytes := t.flatMap charBytes

theorem encoded_cons (c : Nat) (t : Text) : encoded (c :: t) = charBytes c ++ t.encoded := rfl

theorem bytesFrom_eq_ok_iff {t : Text} {i : Nat} {bs : Bytes} :
    bytesFrom i t = .ok bs ↔ (∀ c ∈ t, isSurrogate c = true → isEscapedByte c = true) ∧ bs = t.encoded := by
  induction t generalizing i bs with
  | nil =>
    simp only [bytesFrom, encoded, List.flatMap_nil, Except.ok.injEq]
    exact ⟨fun h => ⟨nofun, h.symm⟩, fun h => h.2.symm⟩
  | cons c t ih =>
    unfold bytesFrom
    cases hc : isSurrogate c && !isEscapedByte c with
    | true => simp_all
    | false =>
      simp only [Bool.false_eq_true, if_false, map_eq_ok_iff, ih]
      constructor
      · rintro ⟨_, ⟨hrest, rfl⟩, rfl⟩
        refine ⟨?_, rfl⟩
        intro d hd
        rcases List.mem_cons.1 hd with rfl | hd
        · simpa using hc
        · exact hrest d hd
      · rintro ⟨hall, rfl⟩
        exact ⟨_, ⟨fun d hd => hall d (List.mem_cons_of_mem c hd), rfl⟩, rfl⟩

theorem toBytes_eq_ok_iff {t : Text} {bs : Bytes} :
    t.toBytes = .ok bs ↔ (∀ c ∈ t, isSurrogate c = true → isEscapedByte c = true) ∧ bs = t.encoded :=
  bytesFrom_eq_ok_iff

theorem toBytes_of_hasBytes {t : Text} (h : ∀ c ∈ t, HasBytes c) : t.toBytes = .ok t.encoded :=
  toBytes_eq_ok_iff.2 ⟨fun c hc => (h c hc).escaped, rfl⟩

theorem toNat_toUInt8 {n : Nat} (h : n < 256) : n.toUInt8.toNat = n := by
  rw [Nat.toUInt8, UInt8.toNat_ofNat', Nat.mod_eq_of_lt h]

theorem toUInt8_eq {n : Nat} {b : UInt8} (h : n = b.toNat) : n.toUInt8 = b := by
  subst h
  exact UInt8.ofNat_toNat

section Widths

variable {c : Nat} {b d e f : UInt8}

theorem isSurrogate_eq_false (hc : c < 0xD800 ∨ 0xDFFF < c) : isSurrogate c = false := by
  simp only [isSurrogate, Bool.and_eq_false_iff, decide_eq_false_iff_not]
  omega

theorem HasBytes.of_character (hle : c ≤ 0x10FFFF) (hc : c < 0xD800 ∨ 0xDFFF < c) : HasBytes c :=
  ⟨hle, fun hs => Bool.noConfusion ((isSurrogate_eq_false hc).symm.trans hs)⟩

theorem charBytes_one (hc : c < 0x80) (hb : c = b.toNat) : charBytes c = [b] := by
  rw [charBytes, if_pos hc, toUInt8_eq hb]

theorem charBytes_two (hlow : 0x80 ≤ c) (hhigh : c < 0x800) (hb : 0xC0 + c / 64 = b.toNat)
    (hd : 0x80 + c % 64 = d.toNat) : charBytes c = [b, d] := by
  rw [charBytes, if_neg (by omega), if_pos hhigh, toUInt8_eq hb, toUInt8_eq hd]

theorem charBytes_three (hlow : 0x800 ≤ c) (hhigh : c < 0x10000) (hc : c < 0xD800 ∨ 0xDFFF < c)
    (hb : 0xE0 + c / 4096 = b.toNat) (hd : 0x80 + c / 64 % 64 = d.toNat) (he : 0x80 + c % 64 = e.toNat) :
    charBytes c = [b, d, e] := by
  rw [charBytes, if_neg (by omega), if_neg (by omega), isSurrogate_eq_false hc, if_neg Bool.false_ne_true,
    if_pos hhigh, toUInt8_eq hb, toUInt8_eq hd, toUInt8_eq he]

theorem charBytes_four (hlow : 0x10000 ≤ c) (hb : 0xF0 + c / 262144 = b.toNat) (hd : 0x80 + c / 4096 % 64 = d.toNat)
    (he : 0x80 + c / 64 % 64 = e.toNat) (hf : 0x80 + c % 64 = f.toNat) : charBytes c = [b, d, e, f] := by
  rw [charBytes, if_neg (by omega), if_neg (by omega), isSurrogate_eq_false (by omega), if_neg Bool.false_ne_true,
    if_neg (by omega), toUInt8_eq hb, toUInt8_eq hd, toUInt8_eq he, toUInt8_eq hf]

/-- A surrogate stands for its low byte. -/
theorem charBytes_surrogate (hs : isSurrogate c = true) (hb : c % 256 = b.toNat) : charBytes c = [b] := by
  have hbounds := hs
  simp only [isSurrogate, Bool.and_eq_true, decide_eq_true_eq] at hbounds
  rw [charBytes, if_neg (by omega), if_neg (by omega), hs, if_pos rfl, toUInt8_eq hb]

end Widths

/-- A byte below 0x80 is a character, and stands for itself. -/
theorem charBytes_low {c : Nat} (hc : HasBytes c) {b : UInt8} (hb : b ∈ charBytes c) (hlow : b.toNat < 0x80) :
    c = b.toNat := by
  have hescaped := hc.escaped
  have hle := hc.le
  simp only [isSurrogate, isEscapedByte, Bool.and_eq_true, decide_eq_true_eq] at hescaped
  simp only [charBytes, isSurrogate, Bool.and_eq_true, decide_eq_true_eq] at hb
  split at hb
  · obtain rfl := List.mem_singleton.1 hb
    exact (toNat_toUInt8 (by omega)).symm
  · -- All bytes of a longer sequence are above.
    exfalso
    have habove : 0x80 ≤ b.toNat := by
      split at hb
      · simp only [List.mem_cons, List.not_mem_nil, or_false] at hb
        rcases hb with rfl | rfl <;> rw [toNat_toUInt8 (by omega)] <;> omega
      · split at hb
        · obtain rfl := List.mem_singleton.1 hb
          rw [toNat_toUInt8 (by omega)]
          omega
        · split at hb
          · simp only [List.mem_cons, List.not_mem_nil, or_false] at hb
            rcases hb with rfl | rfl | rfl <;> rw [toNat_toUInt8 (by omega)] <;> omega
          · simp only [List.mem_cons, List.not_mem_nil, or_false] at hb
            rcases hb with rfl | rfl | rfl | rfl <;> rw [toNat_toUInt8 (by omega)] <;> omega
    omega

theorem encoded_append (t u : Text) : encoded (t ++ u) = t.encoded ++ u.encoded := List.flatMap_append

theorem toBytes_append {t u : Text} {bs cs : Bytes} (ht : t.toBytes = .ok bs) (hu : u.toBytes = .ok cs) :
    (t ++ u).toBytes = .ok (bs ++ cs) := by
  obtain ⟨hpairs, rfl⟩ := toBytes_eq_ok_iff.1 ht
  obtain ⟨hpairs', rfl⟩ := toBytes_eq_ok_iff.1 hu
  exact toBytes_eq_ok_iff.2 ⟨List.forall_mem_append.2 ⟨hpairs, hpairs'⟩, (encoded_append t u).symm⟩

theorem charBytes_ne_nil (c : Nat) : charBytes c ≠ [] := by
  unfold charBytes
  repeat' split
  all_goals exact List.cons_ne_nil _ _

theorem encoded_ne_nil {t : Text} (h : t ≠ []) : t.encoded ≠ [] := by
  cases t with
  | nil => exact absurd rfl h
  | cons c t =>
    rw [encoded_cons]
    exact fun h => charBytes_ne_nil c (List.append_eq_nil_iff.1 h).1

theorem mem_of_mem_encoded {t : Text} (ht : ∀ c ∈ t, HasBytes c) {b : UInt8} (hlow : b.toNat < 0x80)
    (h : b ∈ t.encoded) : b.toNat ∈ t := by
  obtain ⟨c, hc, hb⟩ := List.mem_flatMap.1 h
  exact charBytes_low (ht c hc) hb hlow ▸ hc

/-- A text whose bytes are all below 0x80 has them for characters. -/
theorem eq_of_encoded_low {t : Text} (ht : ∀ c ∈ t, HasBytes c) (h : ∀ b ∈ t.encoded, b.toNat < 0x80) :
    t = t.encoded.map UInt8.toNat := by
  induction t with
  | nil => rfl
  | cons c t ih =>
    obtain ⟨b, bs, hbytes⟩ := List.exists_cons_of_ne_nil (charBytes_ne_nil c)
    have hb : b ∈ charBytes c := hbytes ▸ List.mem_cons_self
    have hlow : b.toNat < 0x80 := h b (List.mem_append_left _ hb)
    have hc := charBytes_low (ht c List.mem_cons_self) hb hlow
    rw [encoded_cons, charBytes_one (hc ▸ hlow) hc, List.map_append, List.map_singleton, ← hc,
      ← ih (fun d hd => ht d (List.mem_cons_of_mem c hd)) fun d hd => h d (List.mem_append_right _ hd)]
    rfl

theorem encoded_low {bs : Bytes} (h : ∀ b ∈ bs, b.toNat < 0x80) : encoded (bs.map UInt8.toNat) = bs := by
  induction bs with
  | nil => rfl
  | cons b bs ih =>
    rw [List.map_cons, encoded_cons, charBytes_one (h b List.mem_cons_self) rfl,
      ih fun d hd => h d (List.mem_cons_of_mem b hd)]
    rfl

/-- A text is one of characters below 0x80 if its bytes are those of one. -/
theorem eq_iff_encoded_eq {t : Text} (bs : Bytes) (ht : ∀ c ∈ t, HasBytes c) (hlow : ∀ b ∈ bs, b.toNat < 0x80) :
    t = bs.map UInt8.toNat ↔ t.encoded = bs := by
  constructor
  · rintro rfl
    exact encoded_low hlow
  · rintro rfl
    exact eq_of_encoded_low ht hlow

end Text

namespace Utf8

theorem continuation_succ {n : Nat} {lo hi : UInt8} {value width c : Nat} {bs rest : Bytes}
    (h : continuation (n + 1) lo hi value width bs = .char c rest) :
    ∃ b bs', bs = b :: bs' ∧ lo.toNat ≤ b.toNat ∧ b.toNat ≤ hi.toNat ∧
      continuation n 0x80 0xBF (value * 64 + b.toNat % 64) (width + 1) bs' = .char c rest := by
  cases bs with
  | nil => simp [continuation] at h
  | cons b bs =>
    simp only [continuation, Bool.and_eq_true, decide_eq_true_eq] at h
    split at h
    · rename_i hbounds
      exact ⟨b, bs, rfl, UInt8.le_iff_toNat_le.1 hbounds.1, UInt8.le_iff_toNat_le.1 hbounds.2, h⟩
    · cases h

theorem toNat_ite (b x y z : UInt8) :
    (if b = x then y else z).toNat = if b.toNat = x.toNat then y.toNat else z.toNat := by
  simp only [UInt8.toNat_inj]
  split <;> rfl

/-- The bytes of a character are those that it is read from. -/
theorem charBytes_of_head {b : UInt8} {bs rest : Bytes} {c : Nat} (h : head b bs = .char c rest) :
    Text.HasBytes c ∧ Text.charBytes c ++ rest = b :: bs := by
  simp only [head, UInt8.lt_iff_toNat_lt, UInt8.reduceToNat] at h
  -- One case for each number of bytes; the others read no character.
  split at h
  · rename_i hb
    obtain ⟨rfl, rfl⟩ := Head.char.inj h
    exact ⟨.of_character (by omega) (by omega), by rw [Text.charBytes_one hb rfl]; rfl⟩
  split at h
  · cases h
  split at h
  · obtain ⟨b₁, bs, rfl, hlo, hhi, h⟩ := continuation_succ h
    obtain ⟨hc, rfl⟩ := Head.char.inj h
    simp only [UInt8.reduceToNat] at hlo hhi
    exact ⟨.of_character (by omega) (by omega),
      by rw [Text.charBytes_two (b := b) (d := b₁) (by omega) (by omega) (by omega) (by omega)]; rfl⟩
  split at h
  · obtain ⟨b₁, bs, rfl, hlo, hhi, h⟩ := continuation_succ h
    obtain ⟨b₂, bs, rfl, hlo₂, hhi₂, h⟩ := continuation_succ h
    obtain ⟨hc, rfl⟩ := Head.char.inj h
    simp only [toNat_ite, UInt8.reduceToNat] at hlo hhi hlo₂ hhi₂
    have hbounds : 0x800 ≤ c ∧ (c < 0xD800 ∨ 0xDFFF < c) ∧ 0x80 ≤ b₁.toNat ∧ b₁.toNat ≤ 0xBF := by
      split at hlo <;> split at hhi <;> omega
    exact ⟨.of_character (by omega) (by omega), by
      rw [Text.charBytes_three (b := b) (d := b₁) (e := b₂) (by omega) (by omega) (by omega) (by omega) (by omega)
        (by omega)]
      rfl⟩
  split at h
  · obtain ⟨b₁, bs, rfl, hlo, hhi, h⟩ := continuation_succ h
    obtain ⟨b₂, bs, rfl, hlo₂, hhi₂, h⟩ := continuation_succ h
    obtain ⟨b₃, bs, rfl, hlo₃, hhi₃, h⟩ := continuation_succ h
    obtain ⟨hc, rfl⟩ := Head.char.inj h
    simp only [toNat_ite, UInt8.reduceToNat] at hlo hhi hlo₂ hhi₂ hlo₃ hhi₃
    have hbounds : 0x10000 ≤ c ∧ c ≤ 0x10FFFF ∧ 0x80 ≤ b₁.toNat ∧ b₁.toNat ≤ 0xBF := by
      split at hlo <;> split at hhi <;> omega
    exact ⟨.of_character (by omega) (by omega), by
      rw [Text.charBytes_four (b := b) (d := b₁) (e := b₂) (f := b₃) (by omega) (by omega) (by omega) (by omega)
        (by omega)]
      rfl⟩
  · cases h

/-- **What is read without fail has the bytes that it was read from.** -/
theorem encoded_decodeEscaped (bs : Bytes) :
    (∀ c ∈ decodeEscaped bs, Text.HasBytes c) ∧ (decodeEscaped bs).encoded = bs := by
  fun_induction decodeEscaped bs with
  | case1 => exact ⟨nofun, rfl⟩
  | case2 b bs c rest h hlen ih =>
    obtain ⟨hc, hbytes⟩ := charBytes_of_head h
    refine ⟨?_, ?_⟩
    · intro d hd
      rcases List.mem_cons.1 hd with rfl | hd
      · exact hc
      · exact ih.1 d hd
    · rw [Text.encoded_cons, ih.2, hbytes]
  | case3 b bs hbad ih =>
    have hhigh : 0x80 ≤ b.toNat := by
      refine Nat.le_of_not_lt fun hlow => hbad b.toNat bs ?_
      rw [head, if_pos (UInt8.lt_iff_toNat_lt.2 hlow)]
    have hlt := b.toNat_lt
    have hs : Text.isSurrogate (0xDC00 + b.toNat) = true := by
      simp only [Text.isSurrogate, Bool.and_eq_true, decide_eq_true_eq]
      omega
    refine ⟨?_, ?_⟩
    · intro d hd
      rcases List.mem_cons.1 hd with rfl | hd
      · refine ⟨by omega, fun _ => ?_⟩
        simp only [Text.isEscapedByte, Bool.and_eq_true, decide_eq_true_eq]
        omega
      · exact ih.1 d hd
    · rw [Text.encoded_cons, ih.2, Text.charBytes_surrogate (b := b) hs (by omega)]
      rfl

end Utf8

end RequestLog
