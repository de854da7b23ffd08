/-
Texts one after the other. A reading of the first goes on with one of the
second unless the first ends in the middle of an escape: in a lone backslash,
or in octal digits that the second has more of (`Seam`). So decoding goes
through the two apart (`unescape_append`).
-/
import RequestLog.Proofs.Readings

namespace RequestLog.Escape

/-- A text whose reading has ended can go on with another: its last escape is complete and takes
nothing from the other. -/
structure Seam (ts : List Token) (b : Bytes) : Prop where
  complete : ts.getLast? ≠ .some .trailing
  ended : ∀ digits, ts.getLast? = .some (.octal digits) → ∀ d ∈ b.head?, ¬ (48 ≤ d ∧ d ≤ 55)

variable {t u : Token} {ts us : List Token} {a b rest : Bytes}

theorem Seam.tail (h : Seam (t :: u :: us) b) : Seam (u :: us) b :=
  ⟨by simpa using h.complete, fun digits hlast => h.ended digits (by simpa using hlast)⟩

theorem Token.spelling_ne_nil (t : Token) : t.spelling ≠ [] := by
  cases t <;> exact List.cons_ne_nil _ _

/-- What a token asks for of the rest of a text is in its first byte. -/
theorem Token.Fits.extend (h : t.Fits rest) (hne : rest ≠ []) (b : Bytes) : t.Fits (rest ++ b) := by
  cases h with
  | plain hb => exact .plain hb
  | letter => exact .letter
  | octal hdigits hall hrest =>
    obtain ⟨c, rest, rfl⟩ := List.exists_cons_of_ne_nil hne
    exact .octal hdigits hall hrest
  | bareNul hd => exact .bareNul hd
  | unknown hletter hdigit => exact .unknown hletter hdigit
  | trailing => exact absurd rfl hne

/-- The last token of a text fits one that goes on after it. -/
theorem Token.Fits.join (h : t.Fits []) (hseam : Seam [t] b) : t.Fits b := by
  cases h with
  | plain hb => exact .plain hb
  | letter => exact .letter
  | octal hdigits hall _ => exact .octal hdigits hall (hseam.ended _ rfl)
  | unknown hletter hdigit => exact .unknown hletter hdigit
  | trailing => exact absurd rfl hseam.complete

theorem Reading.append (ha : Reading ts a) (hb : Reading us b) (hseam : Seam ts b) : Reading (ts ++ us) (a ++ b) := by
  induction ha with
  | nil => exact hb
  | @cons t ts rest hfits hrest ih =>
    rw [List.append_assoc]
    cases hrest with
    | nil => exact .cons (hfits.join hseam) hb
    | @cons u _ rest _ _ =>
      have hne : u.spelling ++ rest ≠ [] := List.append_ne_nil_of_left_ne_nil u.spelling_ne_nil rest
      exact .cons (hfits.extend hne b) (ih hseam.tail)

theorem readable_append (h : 0 ∉ a) (b : Bytes) : readable (a ++ b) = a ++ readable b :=
  List.takeWhile_append_of_pos fun d hd => by simpa using fun hzero : d = 0 => h (hzero ▸ hd)

/-- A NUL is no digit, so where a text is cut short at one its seam stays. -/
theorem Seam.readable (h : Seam ts b) : Seam ts (readable b) := by
  refine ⟨h.complete, ?_⟩
  intro digits hlast d hd
  refine h.ended digits hlast d ?_
  cases b with
  | nil => exact hd
  | cons c b =>
    by_cases hc : c = 0
    · subst hc
      cases hd
    · have hreadable : Escape.readable (c :: b) = c :: Escape.readable b :=
        List.takeWhile_cons_of_pos (by simpa using hc)
      rwa [hreadable] at hd

/-- **Texts are decoded apart** where one goes on after the other. -/
theorem unescape_append (hnul : 0 ∉ a) (ha : Reading ts a) (hseam : Seam ts b) (source : Text) :
    (unescape (a ++ b) source).value = (unescape a source).value ++ (unescape b source).value ∧
      (unescape (a ++ b) source).notices = (unescape a source).notices ++ (unescape b source).notices := by
  have htokens : tokens (readable (a ++ b)) = tokens (readable a) ++ tokens (readable b) := by
    rw [readable_append hnul, readable_eq_self hnul, ← ha.eq_tokens]
    exact (ha.append (reading_tokens _) hseam.readable).eq_tokens.symm
  simp only [unescape_eq, htokens, List.flatMap_append, List.filterMap_append, and_self]

end RequestLog.Escape
