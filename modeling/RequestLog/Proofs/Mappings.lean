/-
Mappings: what is in their fields, and what becomes one. A value that is put
under a name is found under that name, and what is found under any other name
stays (`field_insert`), whatever keys of other kinds the mapping holds beside
its names. A value becomes a mapping if it is one or is made of pairs
(`toMapping_eq_ok_iff`).
-/
import RequestLog.Config.Conversion

namespace RequestLog.Config

/-! ## Fields -/

namespace Value

/-- The only key that is the same as a name is the name itself. -/
theorem sameKey_text_iff {key : Value} {name : Text} : key.sameKey (.text name) = true ↔ key = .text name := by
  cases key <;> simp [sameKey, integer?]

theorem text_sameKey_iff {key : Value} {name : Text} : (Value.text name).sameKey key = true ↔ key = .text name := by
  cases key with
  | text t =>
    simp only [sameKey, beq_iff_eq, text.injEq]
    exact eq_comm
  | _ => simp [sameKey, integer?]

end Value

namespace Mapping

variable {m : Mapping} {name other : Text} {v : Value}

theorem get?_insert_self (m : Mapping) (name : Text) (v : Value) :
    (m.insert (.text name) v).get? (.text name) = .some v := by
  induction m with
  | nil => simp [insert, get?, Value.sameKey]
  | cons e m ih =>
    obtain ⟨key, w⟩ := e
    unfold insert
    split
    · rename_i h
      simp [get?, h]
    · rename_i h
      rw [get?, List.find?_cons_of_neg (by simpa using h)]
      exact ih

/-- What is under any other key stays, whatever kind of key it is. -/
theorem get?_insert_of_ne {key : Value} (m : Mapping) (h : key ≠ .text name) (v : Value) :
    (m.insert (.text name) v).get? key = m.get? key := by
  have hother : (Value.text name).sameKey key = false := by
    rw [Bool.eq_false_iff]
    exact mt Value.text_sameKey_iff.1 h
  induction m with
  | nil => simp [insert, get?, hother]
  | cons e m ih =>
    obtain ⟨k, w⟩ := e
    unfold insert
    split
    · rename_i hkey
      obtain rfl := Value.sameKey_text_iff.1 hkey
      simp [get?, hother]
    · cases hk : k.sameKey key with
      | true => simp [get?, hk]
      | false =>
        rw [get?, get?, List.find?_cons_of_neg (by simp [hk]), List.find?_cons_of_neg (by simp [hk])]
        exact ih

theorem get?_insert_other (m : Mapping) (h : other ≠ name) (v : Value) :
    (m.insert (.text name) v).get? (.text other) = m.get? (.text other) :=
  get?_insert_of_ne m (mt Value.text.inj h) v

theorem get?_insertNew_of_ne {key : Value} (m : Mapping) (h : key ≠ .text name) (v : Value) :
    (m.insertNew (.text name) v).get? key = m.get? key := by
  unfold insertNew
  split
  · rfl
  · exact get?_insert_of_ne m h v

/-- A value that is there already makes no difference. -/
theorem insert_eq_self (h : m.get? (.text name) = .some v) : m.insert (.text name) v = m := by
  induction m with
  | nil => cases h
  | cons e m ih =>
    obtain ⟨k, w⟩ := e
    unfold insert
    cases hk : k.sameKey (.text name) with
    | true =>
      rw [get?, List.find?_cons_of_pos (by exact hk)] at h
      cases h
      rfl
    | false =>
      rw [get?, List.find?_cons_of_neg (by simp [hk])] at h
      rw [if_neg Bool.false_ne_true, ih h]

theorem insertNew_eq_self {w : Value} (h : m.get? (.text name) = .some w) (v : Value) :
    m.insertNew (.text name) v = m := by
  rw [insertNew, h]
  rfl

/-- What is under a name after a value has been put under one. -/
theorem field_insert (m : Mapping) (name other : Text) (v : Value) :
    (m.insert (.text name) v).field other = if other = name then v else m.field other := by
  split
  · rename_i h
    rw [h, field, get?_insert_self]; rfl
  · rename_i h
    rw [field, get?_insert_other m h, field]

theorem field_insert_self (m : Mapping) (name : Text) (v : Value) : (m.insert (.text name) v).field name = v := by
  rw [field_insert, if_pos rfl]

theorem field_insert_other (m : Mapping) (h : other ≠ name) (v : Value) :
    (m.insert (.text name) v).field other = m.field other := by
  rw [field_insert, if_neg h]

theorem field_insertNew_other (m : Mapping) (h : other ≠ name) (v : Value) :
    (m.insertNew (.text name) v).field other = m.field other := by
  unfold insertNew
  split
  · rfl
  · exact field_insert_other m h v

end Mapping

/-! ## Mappings from values of other kinds -/

namespace Value

/-- A value of two parts, of which the first can be a key. -/
def IsPair (v : Value) : Prop := ∃ k w, v.parts? = .some [k, w] ∧ k.isKey = true

/-- A mapping, or pairs. -/
def IsMappable (v : Value) : Prop := (∃ m, v = .map m) ∨ ∃ vs, v.parts? = .some vs ∧ ∀ w ∈ vs, w.IsPair

theorem addPairs_eq_ok_iff {m : Mapping} {i : Nat} {vs : List Value} :
    (∃ m', addPairs m i vs = .ok m') ↔ ∀ w ∈ vs, w.IsPair := by
  induction vs generalizing m i with
  | nil => simp [addPairs]
  | cons v vs ih =>
    rw [List.forall_mem_cons]
    unfold addPairs
    split
    · rename_i hparts
      simp [IsPair, hparts]
    · rename_i k w hparts
      split
      · rename_i hkey
        simp [IsPair, hparts, hkey, ih]
      · rename_i hkey
        simp [IsPair, hparts, hkey]
    · rename_i ps hne hparts
      have hpair : ∀ k w, ps ≠ [k, w] := fun k w h => hne k w (h ▸ rfl)
      simp [IsPair, hparts, hpair]

theorem toMapping_eq_ok_iff {v : Value} : (∃ m, v.toMapping = .ok m) ↔ v.IsMappable := by
  unfold toMapping
  split
  · rename_i es
    exact iff_of_true ⟨es, rfl⟩ (.inl ⟨es, rfl⟩)
  · rename_i hmap
    split
    · rename_i hparts
      refine iff_of_false nofun ?_
      rintro (⟨m, rfl⟩ | ⟨vs, hvs, _⟩)
      · exact hmap m rfl
      · rw [hparts] at hvs; cases hvs
    · rename_i vs hparts
      refine addPairs_eq_ok_iff.trans ⟨fun h => .inr ⟨vs, hparts, h⟩, ?_⟩
      rintro (⟨m, rfl⟩ | ⟨vs', hvs, h⟩)
      · exact absurd rfl (hmap m)
      · rw [hparts] at hvs; cases hvs
        exact h

theorem toMappingOrEmpty_eq_ok_iff {v : Value} :
    (∃ m, v.toMappingOrEmpty = .ok m) ↔ v.isVoid = true ∨ v.IsMappable := by
  unfold toMappingOrEmpty
  split
  · rename_i h
    exact iff_of_true ⟨[], rfl⟩ (.inl h)
  · rename_i h
    rw [toMapping_eq_ok_iff, or_iff_right h]

theorem toMappingOrEmpty_map (m : Mapping) : (Value.map m).toMappingOrEmpty = .ok m := by
  unfold toMappingOrEmpty
  split
  · rename_i h
    rw [List.isEmpty_iff.1 h]
  · rfl

end Value

end RequestLog.Config
