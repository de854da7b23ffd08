/-
Which targets of a list are written when their headers come in another list.
The lists are paired from the front as far as both go, so that a log holds one
record for each target only if there are as many headers: the targets that are
left over are not written, and nothing tells of them (`write_pairs`).
-/
import RequestLog.Proofs.Written

namespace RequestLog.Writer

open Record

variable {t : Tree} {path : Text} {token : Bytes} {ps : List (Datum × Option Datum)} {rs : List Record}
  {targets : List Datum} {headers : List (Option Datum)}

theorem spellable_of_composed (h : (ps.map fun p => compose p.1 p.2) = rs.map .ok) : ∀ r ∈ rs, r.Spellable := by
  intro r hr
  obtain ⟨p, _, hp⟩ := List.mem_map.1 (h ▸ List.mem_map_of_mem hr)
  exact (compose_eq_ok_iff.1 hp).2.2

/-- Each record of a log is composed of the target and the header at its place. -/
theorem composed_at (h : ((pairs targets (.some headers)).map fun p => compose p.1 p.2) = rs.map .ok) {k : Nat}
    {d : Datum} {hd : Option Datum} (htarget : targets[k]? = .some d) (hheader : headers[k]? = .some hd) :
    ∃ r, rs[k]? = .some r ∧ compose d hd = .ok r := by
  have hpair : (pairs targets (.some headers))[k]? = .some (d, hd) :=
    List.getElem?_zip_eq_some.2 ⟨htarget, hheader⟩
  have hk := congrArg (·[k]?) h
  simp only [List.getElem?_map, hpair, Option.map_some] at hk
  obtain ⟨r, hr, hcompose⟩ := Option.map_eq_some_iff.1 hk.symm
  exact ⟨r, hr, hcompose.symm⟩

theorem mem_pairs_iff {p : Datum × Option Datum} :
    p ∈ pairs targets (.some headers) ↔ ∃ k : Nat, targets[k]? = .some p.1 ∧ headers[k]? = .some p.2 := by
  rw [pairs, List.mem_iff_getElem?]
  simp only [List.getElem?_zip_eq_some]

/-- **Targets are written as far as there are headers for them.** Writing succeeds if and only if the path
is writable and each target with a header at its place can be written with it, whatever targets or headers
are left over. Then the log holds one record for each such target, made of the two, in order; they are all
targets if and only if there are no fewer headers. Where writing fails the tree is as it was. -/
theorem write_pairs (t : Tree) (path : Text) (token : Bytes) (targets : List Datum)
    (headers : List (Option Datum)) :
    let out := write t path token (pairs targets (.some headers))
    ((∃ n, out.2 = .ok n) ↔ Writable t path token ∧
      ∀ (k : Nat) d h, targets[k]? = .some d → headers[k]? = .some h → ∃ r, compose d h = .ok r) ∧
    (∀ n, out.2 = .ok n → n = min targets.length headers.length ∧
      (n = targets.length ↔ targets.length ≤ headers.length) ∧
      ∃ rs : List Record, rs.length = n ∧ out.1.lookup path = .ok (.file (rs.flatMap spelling)) ∧
        Scan.records (rs.flatMap spelling) = rs.map body ∧
        ∀ (k : Nat) d h, targets[k]? = .some d → headers[k]? = .some h →
          ∃ r, rs[k]? = .some r ∧ compose d h = .ok r) ∧
    ∀ f, out.2 = .error f → out.1 = t := by
  intro out
  refine ⟨⟨?_, ?_⟩, ?_, fun f hf => write_failed hf⟩
  · rintro ⟨n, hn⟩
    obtain ⟨hw, hnone⟩ := writable_of_write (Prod.ext rfl hn)
    refine ⟨hw, ?_⟩
    intro k d h hd hh
    exact exists_encode_iff.1 (encodeAll_eq_none_iff.1 hnone (d, h) (mem_pairs_iff.2 ⟨k, hd, hh⟩))
  · rintro ⟨hw, hcompose⟩
    rcases write_cases hw (pairs targets (.some headers)) with ⟨rs, t', _, hwrite, _⟩ | ⟨hbad, _⟩
    · exact ⟨_, congrArg Prod.snd hwrite⟩
    · refine absurd ?_ hbad
      intro p hp
      obtain ⟨k, hd, hh⟩ := mem_pairs_iff.1 hp
      exact hcompose k p.1 p.2 hd hh
  · intro n hn
    have hw := (writable_of_write (Prod.ext rfl hn)).1
    rcases write_cases hw (pairs targets (.some headers)) with ⟨rs, t', hrs, hwrite, hfile⟩ | ⟨_, f, hwrite⟩
    · have hout : out = (t', .ok rs.length) := hwrite
      rw [hout] at hn ⊢
      cases hn
      have hlength : rs.length = min targets.length headers.length := by
        rw [← List.length_zip]
        simpa [pairs] using (congrArg List.length hrs).symm
      refine ⟨hlength, ?_, rs, rfl, hfile, ?_, fun k d h hd hh => composed_at hrs hd hh⟩
      · rw [hlength]
        omega
      · rw [Scan.records_eq_pieces, Scan.pieces_spellings (spellable_of_composed hrs)]
    · have hout : out = (t, .error f) := hwrite
      rw [hout] at hn
      cases hn

/-- Two targets and one header text are written as one record. -/
theorem short_headers_drop_target :
    let targets : List Datum := [.text "/a", .text "/b"]
    ∃ t', write ⟨[], []⟩ "log" [49] (pairs targets (.some [.some (.text "h")])) = (t', .ok 1) ∧
      t'.lookup "log" = .ok (.file [104, 1, 47, 97, 0]) ∧ Scan.records [104, 1, 47, 97, 0] = [[104, 1, 47, 97]] ∧
      1 ≠ targets.length := by
  intro targets
  have hencoded : encodeAll (pairs targets (.some [.some (.text "h")])) = ([104, 1, 47, 97, 0], 1, .none) := rfl
  obtain ⟨t', hwrite, hreplaced⟩ := write_replaces writable_log hencoded
  exact ⟨t', hwrite, hreplaced.found, by decide +kernel, by decide⟩

end RequestLog.Writer
