/-
What going through a text comes to, token by token. A token is a byte that
stands for itself or a backslash with what belongs to it. From any index on,
a text adds the bytes and the notices of the tokens that are left of it there
(`decodeFrom_eq`), so in all it stands for what its tokens mean
(`unescape_eq`).
-/
import RequestLog.Escape

namespace RequestLog.Escape

/-! ## Letters -/

/-- The letters that have a meaning after a backslash. -/
inductive Letter where
  | backslash
  | lineFeed
  | carriageReturn
  | newline
  deriving Repr, DecidableEq

namespace Letter

def byte : Letter → UInt8
  | backslash => 92
  | lineFeed => 97
  | carriageReturn => 114
  | newline => 110

def meaning : Letter → Bytes
  | backslash => [92]
  | lineFeed => [10]
  | carriageReturn => [13]
  | newline => [13, 10]

def ofByte? (b : UInt8) : Option Letter :=
  if b = 92 then .some backslash
  else if b = 97 then .some lineFeed
  else if b = 114 then .some carriageReturn
  else if b = 110 then .some newline
  else .none

theorem ofByte?_byte (l : Letter) : ofByte? l.byte = .some l := by cases l <;> rfl

theorem byte_of_ofByte? {b : UInt8} {l : Letter} (h : ofByte? b = .some l) : l.byte = b := by
  unfold ofByte? at h
  repeat' split at h
  all_goals first | cases h; simp_all [byte] | cases h

end Letter

theorem simple?_eq (b : UInt8) : simple? b = (Letter.ofByte? b).map Letter.meaning := by
  simp only [simple?, Letter.ofByte?, apply_ite (Option.map Letter.meaning), Option.map_some, Option.map_none,
    Letter.meaning]

/-! ## Tokens -/

/-- The two digits that are not octal. -/
def isHighDigit (b : UInt8) : Bool := b == 56 || b == 57

/-- The tokens. A backslash before 8 or 9 is a token without the digit, which is read again as a
byte. -/
inductive Token where
  | plain (b : UInt8)
  | letter (l : Letter)
  | octal (digits : Bytes)
  | bareNul
  | unknown (b : UInt8)
  | trailing
  deriving Repr, DecidableEq

namespace Token

/-- The bytes a token stands for; of a large octal number only the low byte counts. -/
def meaning : Token → Bytes
  | plain b => [b]
  | letter l => l.meaning
  | octal digits => [(octalValue digits).toUInt8]
  | bareNul => [0]
  | unknown b => [b]
  | trailing => []

/-- The bytes a token is written with. -/
def spelling : Token → Bytes
  | plain b => [b]
  | letter l => [92, l.byte]
  | octal digits => 92 :: digits
  | bareNul => [92]
  | unknown b => [92, b]
  | trailing => [92]

/-- A backslash without meaning is reported. -/
def notice? (source : Text) : Token → Option Notice
  | unknown b => .some (.unknownEscape b source)
  | trailing => .some (.trailingBackslash source)
  | _ => .none

end Token

/-- The first token of a text that begins with a backslash, and what is left. -/
def escaped : Bytes → Token × Bytes
  | [] => (.trailing, [])
  | c :: bs =>
    match Letter.ofByte? c with
    | .some l => (.letter l, bs)
    | .none =>
      if isOctal c then (.octal (c :: bs.takeWhile isOctal), bs.dropWhile isOctal)
      else if isHighDigit c then (.bareNul, c :: bs)
      else (.unknown c, bs)

theorem length_dropWhile_le {α : Type} (p : α → Bool) (l : List α) : (l.dropWhile p).length ≤ l.length :=
  (List.dropWhile_sublist p).length_le

theorem length_escaped_snd (bs : Bytes) : (escaped bs).2.length ≤ bs.length := by
  unfold escaped
  split
  · simp
  · rename_i c bs
    have := length_dropWhile_le isOctal bs
    split
    · simp
    · split
      · simp only [List.length_cons]; omega
      · split <;> simp

/-- The tokens of a text. -/
def tokens : Bytes → List Token
  | [] => []
  | b :: bs =>
    if b = 92 then (escaped bs).1 :: tokens (escaped bs).2
    else .plain b :: tokens bs
termination_by bs => bs.length
decreasing_by
  · have := length_escaped_snd bs; simp only [List.length_cons]; omega
  · simp

/-! ## The first token after a backslash -/

theorem isOctal_iff {b : UInt8} : isOctal b = true ↔ 48 ≤ b ∧ b ≤ 55 := by
  simp only [isOctal, Bool.and_eq_true, decide_eq_true_eq]

theorem isDigit_iff {b : UInt8} : isDigit b = true ↔ 48 ≤ b ∧ b ≤ 57 := by
  simp only [isDigit, Bool.and_eq_true, decide_eq_true_eq]

theorem Letter.ofByte?_eq_none_iff {b : UInt8} : ofByte? b = .none ↔ ∀ l : Letter, b ≠ l.byte := by
  constructor
  · rintro h l rfl
    rw [ofByte?_byte] at h
    cases h
  · intro h
    cases hl : ofByte? b with
    | none => rfl
    | some l => exact absurd (byte_of_ofByte? hl).symm (h l)

/-- No letter is a digit. -/
theorem Letter.ofByte?_digit {b : UInt8} (h : 48 ≤ b ∧ b ≤ 57) : ofByte? b = .none := by
  rw [ofByte?_eq_none_iff]
  rintro l rfl
  revert h
  cases l <;> decide

section Escaped

variable {b : UInt8} (bs : Bytes)

theorem escaped_letter (l : Letter) : escaped (l.byte :: bs) = (.letter l, bs) := by
  simp [escaped, Letter.ofByte?_byte]

theorem escaped_octal (hb : 48 ≤ b ∧ b ≤ 55) :
    escaped (b :: bs) = (.octal (b :: bs.takeWhile isOctal), bs.dropWhile isOctal) := by
  have hletter := Letter.ofByte?_digit ⟨hb.1, UInt8.le_trans hb.2 (by decide)⟩
  simp [escaped, hletter, isOctal_iff.2 hb]

theorem escaped_highDigit (hb : b = 56 ∨ b = 57) : escaped (b :: bs) = (.bareNul, b :: bs) := by
  rcases hb with rfl | rfl <;> rfl

theorem escaped_unknown (hletter : ∀ l : Letter, b ≠ l.byte) (hdigit : ¬ (48 ≤ b ∧ b ≤ 57)) :
    escaped (b :: bs) = (.unknown b, bs) := by
  have hoctal : ¬ isOctal b = true := by
    rw [isOctal_iff]
    exact fun h => hdigit ⟨h.1, UInt8.le_trans h.2 (by decide)⟩
  have hhigh : ¬ isHighDigit b = true := by
    simp only [isHighDigit, Bool.or_eq_true, beq_iff_eq]
    rintro (rfl | rfl) <;> exact hdigit (by decide)
  simp [escaped, Letter.ofByte?_eq_none_iff.2 hletter, hoctal, hhigh]

/-- A digit is octal or one of the two that are not. -/
theorem digit_cases (h : 48 ≤ b ∧ b ≤ 57) : (48 ≤ b ∧ b ≤ 55) ∨ b = 56 ∨ b = 57 := by
  simp only [← UInt8.toNat_inj, UInt8.le_iff_toNat_le, UInt8.reduceToNat] at h ⊢
  omega

end Escaped

/-! ## Runs of octal digits -/

theorem runEnd_eq (data : Bytes) (i : Nat) : runEnd data i = i + ((data.drop i).takeWhile isOctal).length := by
  fun_induction runEnd data i with
  | case1 i h hoctal ih =>
    rw [ih, List.drop_eq_getElem_cons h, List.takeWhile_cons_of_pos hoctal, List.length_cons]
    omega
  | case2 i h hoctal =>
    rw [List.drop_eq_getElem_cons h, List.takeWhile_cons_of_neg hoctal, List.length_nil, Nat.add_zero]
  | case3 i h => rw [List.drop_eq_nil_of_le (by omega), List.takeWhile_nil, List.length_nil, Nat.add_zero]

/-- A run of digits is read as its number, and the index goes past it. -/
theorem octalRun_eq (data : Bytes) (i : Nat) :
    octalRun data i =
      ((octalValue ((data.drop i).takeWhile isOctal)).toUInt8, i + ((data.drop i).takeWhile isOctal).length) := by
  have htake : (data.take (runEnd data i)).drop i = (data.drop i).takeWhile isOctal := by
    rw [runEnd_eq, List.drop_take, Nat.add_sub_cancel_left]
    exact List.prefix_iff_eq_take.1 (List.takeWhile_prefix isOctal) |>.symm
  simp only [octalRun, htake]
  split
  · rename_i hstop
    have hnil : (data.drop i).takeWhile isOctal = [] := by
      rw [runEnd_eq] at hstop
      exact List.length_eq_zero_iff.1 (by omega)
    rw [hnil]
    rfl
  · rw [runEnd_eq]

theorem drop_length_takeWhile (p : UInt8 → Bool) (bs : Bytes) : bs.drop (bs.takeWhile p).length = bs.dropWhile p := by
  have hdrop : (bs.takeWhile p ++ bs.dropWhile p).drop (bs.takeWhile p).length = bs.dropWhile p := List.drop_left
  rwa [List.takeWhile_append_dropWhile] at hdrop

theorem drop_octalRun (data : Bytes) (i : Nat) : data.drop (octalRun data i).2 = (data.drop i).dropWhile isOctal := by
  rw [octalRun_eq, ← List.drop_drop, drop_length_takeWhile]

/-! ## The tokens from an index on -/

section Loop

variable {data : Bytes} {i : Nat}

theorem tokens_plain (h : i < data.length) (hb : data[i] ≠ backslash) :
    tokens (data.drop i) = .plain data[i] :: tokens (data.drop (i + 1)) := by
  rw [List.drop_eq_getElem_cons h, tokens, if_neg hb]

theorem tokens_backslash {t : Token} {rest : Bytes} (h : i < data.length) (hb : ¬ data[i] ≠ backslash)
    (hescaped : escaped (data.drop (i + 1)) = (t, rest)) : tokens (data.drop i) = t :: tokens rest := by
  rw [List.drop_eq_getElem_cons h, tokens, if_pos (Decidable.not_not.1 hb), hescaped]

/-- A digit after a backslash stands for the number that begins there. That of a digit that is not octal
is zero, and the index stays at the digit. -/
theorem escaped_digit (h : i < data.length) (hdigit : isDigit data[i] = true) :
    ∃ t : Token, escaped (data.drop i) = (t, data.drop (octalRun data i).2) ∧
      t.meaning = [(octalRun data i).1] ∧ ∀ source, t.notice? source = .none := by
  rw [drop_octalRun, octalRun_eq, List.drop_eq_getElem_cons h]
  rcases digit_cases (isDigit_iff.1 hdigit) with hoctal | hhigh
  · rw [escaped_octal _ hoctal, List.takeWhile_cons_of_pos (isOctal_iff.2 hoctal),
      List.dropWhile_cons_of_pos (isOctal_iff.2 hoctal)]
    exact ⟨_, rfl, rfl, fun _ => rfl⟩
  · have hrun : ¬ isOctal data[i] = true := by
      rcases hhigh with hb | hb <;> rw [hb] <;> decide
    rw [escaped_highDigit _ hhigh, List.takeWhile_cons_of_neg hrun, List.dropWhile_cons_of_neg hrun]
    exact ⟨_, rfl, rfl, fun _ => rfl⟩

end Loop

section Noted

variable {t : Token} {ts us : List Token} {source : Text} {bs : Bytes} (out : Bytes) (told : List Notice)

/-- What tokens add, with the first of them taken apart, which gives no notice. -/
theorem noted_silent (h : ts = t :: us) (hmeaning : t.meaning = bs) (hnotice : t.notice? source = .none) :
    (⟨told ++ ts.filterMap (Token.notice? source), out ++ ts.flatMap Token.meaning⟩ : Noted Bytes) =
      ⟨told ++ us.filterMap (Token.notice? source), out ++ bs ++ us.flatMap Token.meaning⟩ := by
  subst h hmeaning
  rw [List.filterMap_cons_none hnotice, List.flatMap_cons, List.append_assoc]

/-- And with a first token that gives one. -/
theorem noted_told {n : Notice} (h : ts = t :: us) (hmeaning : t.meaning = bs)
    (hnotice : t.notice? source = .some n) :
    (⟨told ++ ts.filterMap (Token.notice? source), out ++ ts.flatMap Token.meaning⟩ : Noted Bytes) =
      ⟨told ++ [n] ++ us.filterMap (Token.notice? source), out ++ bs ++ us.flatMap Token.meaning⟩ := by
  subst h hmeaning
  rw [List.filterMap_cons_some hnotice, List.flatMap_cons, List.append_assoc, List.append_assoc,
    List.singleton_append]

end Noted

/-- **Going through a text gives what its tokens mean,** from any index on. -/
theorem decodeFrom_eq (source : Text) (data : Bytes) (i : Nat) (out : Bytes) (told : List Notice) :
    decodeFrom source data i out told =
      ⟨told ++ (tokens (data.drop i)).filterMap (Token.notice? source),
        out ++ (tokens (data.drop i)).flatMap Token.meaning⟩ := by
  fun_induction decodeFrom source data i out told with
  | case1 i out told h hb ih => exact ih.trans (noted_silent out told (tokens_plain h hb) rfl rfl).symm
  | case2 i out told h hb h' bs hsimple ih =>
    rw [simple?_eq] at hsimple
    obtain ⟨l, hl, rfl⟩ := Option.map_eq_some_iff.1 hsimple
    have hescaped : escaped (data.drop (i + 1)) = (.letter l, data.drop (i + 2)) := by
      rw [List.drop_eq_getElem_cons h', ← Letter.byte_of_ofByte? hl, escaped_letter]
    exact ih.trans (noted_silent out told (tokens_backslash h hb hescaped) rfl rfl).symm
  | case3 i out told h hb h' hsimple hdigit ih =>
    obtain ⟨t, hescaped, hmeaning, hnotice⟩ := escaped_digit h' hdigit
    exact ih.trans (noted_silent out told (tokens_backslash h hb hescaped) hmeaning (hnotice source)).symm
  | case4 i out told h hb h' hsimple hdigit ih =>
    have hletter : ∀ l : Letter, data[i + 1] ≠ l.byte := by
      rw [← Letter.ofByte?_eq_none_iff]
      exact Option.map_eq_none_iff.1 ((simple?_eq _).symm.trans hsimple)
    have hescaped : escaped (data.drop (i + 1)) = (.unknown data[i + 1], data.drop (i + 2)) := by
      rw [List.drop_eq_getElem_cons h', escaped_unknown _ hletter fun hd => hdigit (isDigit_iff.2 hd)]
    exact ih.trans (noted_told out told (tokens_backslash h hb hescaped) rfl rfl).symm
  | case5 i out told h hb h' =>
    have hescaped : escaped (data.drop (i + 1)) = (.trailing, []) := by
      rw [List.drop_eq_nil_of_le (by omega)]
      rfl
    have hmeaning : Token.trailing.meaning = [] := rfl
    rw [noted_told out told (tokens_backslash h hb hescaped) hmeaning rfl, tokens]
    simp
  | case6 i out told h =>
    rw [List.drop_eq_nil_of_le (by omega), tokens]
    simp

theorem unescape_eq (raw : Bytes) (source : Text) :
    unescape raw source =
      ⟨(tokens (readable raw)).filterMap (Token.notice? source), (tokens (readable raw)).flatMap Token.meaning⟩ := by
  rw [unescape, decodeFrom_eq]
  rfl

theorem unescape_value (raw : Bytes) (source : Text) :
    (unescape raw source).value = (tokens (readable raw)).flatMap Token.meaning := by
  rw [unescape_eq]

end RequestLog.Escape
