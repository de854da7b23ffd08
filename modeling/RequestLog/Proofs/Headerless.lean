/-
Records without a header in a log that embeds headers. A target without a
sentinel is read back as itself in both ways of reading (`split_body_plain`),
wherever its record stands among others (`headerless_replays`). A target
with a sentinel is not: where headers are embedded, what is before the
sentinel is read as a header (`sentinel_in_target_is_split`).
-/
import RequestLog.Proofs.Written

namespace RequestLog

namespace Record

/-- A record without a header, and without a sentinel where headers are embedded, is read back as it
is. -/
theorem split_body_plain {r : Record} {e : Bool} (hr : r.header = .none) (h : e = true → sentinel ∉ r.target) :
    split e r.body = r := by
  obtain ⟨target, _ | header⟩ := r
  · cases e with
    | false => rfl
    | true => simp only [split, body, if_true, List.cutAt_of_not_mem (h rfl)]
  · cases hr

end Record

namespace Scan

open Record

variable {rs qs : List Record} {e : Bool}

/-- The requests of a log of written records are those of its parts. -/
theorem requests_spellings_append (hrs : ∀ r ∈ rs, r.Spellable) (hqs : ∀ r ∈ qs, r.Spellable) :
    requests e ((rs ++ qs).flatMap spelling) =
      requests e (rs.flatMap spelling) ++ requests e (qs.flatMap spelling) := by
  have hall : ∀ r ∈ rs ++ qs, r.Spellable := fun r hr => (List.mem_append.1 hr).elim (hrs r) (hqs r)
  simp only [requests, targeted_spellings hall, targeted_spellings hrs, targeted_spellings hqs, List.map_append,
    withTarget_append]

/-- A record that is read back as it is makes one request between those of the records around it. -/
theorem requests_headerless {before after : List Record} {r : Record} (h : ∀ q ∈ before ++ r :: after, q.Spellable)
    (hr : r.header = .none) (he : e = true → sentinel ∉ r.target) :
    requests e ((before ++ r :: after).flatMap spelling) =
      requests e (before.flatMap spelling) ++ ⟨r.target, .none⟩ :: requests e (after.flatMap spelling) := by
  have hbefore : ∀ q ∈ before, q.Spellable := fun q hq => h q (List.mem_append_left _ hq)
  have hafter : ∀ q ∈ after, q.Spellable := fun q hq => h q (by simp [hq])
  have hone : ∀ q ∈ [r], q.Spellable := fun q hq => h q (by simp_all)
  have hread : ∀ q ∈ [r], split e q.body = q := by simpa using split_body_plain hr he
  have hdecoded : [r].map decoded = [⟨r.target, .none⟩] := by
    obtain ⟨target, _ | header⟩ := r
    · rfl
    · cases hr
  have hrest : ∀ q ∈ [r] ++ after, q.Spellable := fun q hq => (List.mem_append.1 hq).elim (hone q) (hafter q)
  rw [← List.singleton_append, requests_spellings_append hbefore hrest, requests_spellings_append hone hafter,
    requests_spellings hone hread, hdecoded, List.singleton_append]

end Scan

namespace Writer

open Record Generator Scan

variable {t t' : Tree} {path : Text} {token : Bytes} {targets : List Datum} {headers : Option (List (Option Datum))}

/-- **A record without a header is replayed as its target alone,** between what comes of the records
before it and of those after it, by generators that take headers from the log and by those that do
not; where headers are embedded its target must not hold a sentinel. So records with and without
headers can stand in one log, and each is replayed with the header it was written with. -/
theorem headerless_replays {n : Nat} (hwrite : write t path token (pairs targets headers) = (t', .ok n)) :
    ∃ rs : List Record, ((pairs targets headers).map fun p => compose p.1 p.2) = rs.map .ok ∧
      ∀ (g : Generator) (c : Change), g.Fresh → (g.apply c).path = .some path →
        let e := (g.apply c).embedded
        (∀ before r after, rs = before ++ r :: after → r.header = .none → (e = true → sentinel ∉ r.target) →
          g.Replays t' c (requests e (before.flatMap spelling) ++
            ⟨r.target, .none⟩ :: requests e (after.flatMap spelling))) ∧
        (e = true → rs ≠ [] → (∀ r ∈ rs, r.header = .none → sentinel ∉ r.target) →
          g.Replays t' c (rs.map decoded)) := by
  obtain ⟨hw, hnone⟩ := writable_of_write hwrite
  obtain ⟨rs, hrs⟩ := exists_map_ok_iff.2 fun p hp => exists_encode_iff.1 (encodeAll_eq_none_iff.1 hnone p hp)
  obtain ⟨_, hwrite', hreplaced⟩ := write_replaces hw (encodeAll_composed hrs)
  rw [hwrite] at hwrite'
  cases hwrite'
  have hfile := hreplaced.found
  have hspellable : ∀ r ∈ rs, r.Spellable := by
    intro r hr
    obtain ⟨p, _, hp⟩ := List.mem_map.1 (hrs ▸ List.mem_map_of_mem hr)
    exact (compose_eq_ok_iff.1 hp).2.2
  refine ⟨rs, hrs, ?_⟩
  intro g c hg hpath e
  refine ⟨?_, ?_⟩
  · intro before r after hsplit hr hsentinel
    subst hsplit
    have hrequests := requests_headerless hspellable hr hsentinel
    have hne : requests e ((before ++ r :: after).flatMap spelling) ≠ [] := by rw [hrequests]; simp
    exact hrequests ▸ hg.replays_requests hpath hfile hne
  · intro he hne hsentinel
    refine hg.replays hpath hfile hne hspellable ?_
    intro r hr
    change split e r.body = r
    -- with a header, the first sentinel is the one that ends it, whatever the target holds
    rcases hheader : r.header with _ | h
    · exact split_body_plain hheader fun _ => hsentinel r hr hheader
    · have hsplit := (hspellable r hr).split_body
      rwa [hheader, Option.isSome_some, ← he] at hsplit

theorem headerless_replays_mixed :
    let targets : List Datum := [.text "/x", .bytes [47, 1, 121], .text "/z"]
    let headers : List (Option Datum) := [.none, .some (.text "a"), .none]
    let g : Generator := { path := .some "log", embedded := true }
    ∃ t', write ⟨[], []⟩ "log" [49] (pairs targets (.some headers)) = (t', .ok 3) ∧
      g.Replays t' {} [⟨[47, 120], .none⟩, ⟨[47, 1, 121], .some [97]⟩, ⟨[47, 122], .none⟩] := by
  intro targets headers g
  have hencoded : encodeAll (pairs targets (.some headers)) =
      ([47, 120, 0, 97, 1, 47, 1, 121, 0, 47, 122, 0], 3, .none) := rfl
  obtain ⟨t', hwrite, _⟩ := write_replaces writable_log hencoded
  obtain ⟨rs, hrs, hreplays⟩ := headerless_replays hwrite
  have hinj : ∀ a b : Record, (Except.ok a : Except Failure Record) = .ok b → a = b := fun _ _ => Except.ok.inj
  obtain rfl : [⟨[47, 120], .none⟩, ⟨[47, 1, 121], .some [97]⟩, ⟨[47, 122], .none⟩] = rs :=
    (List.map_inj_right hinj).1 hrs
  have hdecoded : List.map decoded [⟨[47, 120], .none⟩, ⟨[47, 1, 121], .some [97]⟩, ⟨[47, 122], .none⟩] =
      [⟨[47, 120], .none⟩, ⟨[47, 1, 121], .some [97]⟩, ⟨[47, 122], .none⟩] := by
    decide +kernel
  refine ⟨t', hwrite, ?_⟩
  exact hdecoded ▸ (hreplays g {} ⟨rfl, rfl⟩ rfl).2 rfl (List.cons_ne_nil _ _) (by decide)

/-- A target with a sentinel is written without a header, and is replayed with one where headers are
embedded. -/
theorem sentinel_in_target_is_split :
    let plain : Generator := { path := .some "log" }
    let embedding : Generator := { path := .some "log", embedded := true }
    ∃ t', write ⟨[], []⟩ "log" [49] (pairs [.bytes [47, 97, 1, 98]] .none) = (t', .ok 1) ∧
      plain.Replays t' {} [⟨[47, 97, 1, 98], .none⟩] ∧ embedding.Replays t' {} [⟨[98], .some [47, 97]⟩] ∧
      ¬ embedding.Replays t' {} [⟨[47, 97, 1, 98], .none⟩] := by
  intro plain embedding
  have hencoded : encodeAll (pairs [.bytes [47, 97, 1, 98]] .none) = ([47, 97, 1, 98, 0], 1, .none) := rfl
  obtain ⟨t', hwrite, hreplaced⟩ := write_replaces writable_log hencoded
  have hfile : t'.lookup "log" = .ok (.file [47, 97, 1, 98, 0]) := hreplaced.found
  have hplain : requests false [47, 97, 1, 98, 0] = [⟨[47, 97, 1, 98], .none⟩] := by decide +kernel
  have hembedding : requests true [47, 97, 1, 98, 0] = [⟨[98], .some [47, 97]⟩] := by decide +kernel
  have hplain_ne : requests false [47, 97, 1, 98, 0] ≠ [] := by rw [hplain]; simp
  have hembedding_ne : requests true [47, 97, 1, 98, 0] ≠ [] := by rw [hembedding]; simp
  have hwhole : plain.Replays t' {} (requests false [47, 97, 1, 98, 0]) :=
    Fresh.replays_requests ⟨rfl, rfl⟩ rfl hfile hplain_ne
  have hsplit : embedding.Replays t' {} (requests true [47, 97, 1, 98, 0]) :=
    Fresh.replays_requests ⟨rfl, rfl⟩ rfl hfile hembedding_ne
  rw [hplain] at hwhole
  rw [hembedding] at hsplit
  refine ⟨t', hwrite, hwhole, hsplit, ?_⟩
  -- the two lists differ in their first request, and a generator gives one answer to it
  intro hsame
  have hone := (hsplit.answers 0 _ rfl).1
  rw [(hsame.answers 0 _ rfl).1] at hone
  cases hone

end Writer

end RequestLog
