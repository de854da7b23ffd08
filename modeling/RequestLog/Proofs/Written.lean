/-
Logs that are written and then replayed. A record that can be written is read
back from its spelling (`Record.split_body`), and a log of such records is cut
into them again (`requests_spellings`), so that a generator answers what was
written, in order (`replay_spellings`).
-/
import RequestLog.Proofs.Replacement
import RequestLog.Proofs.Replay
import RequestLog.Proofs.Runs

namespace RequestLog

/-! ## Records and their spellings -/

namespace Record

/-- A record that can be written: its target is not empty and ends neither itself nor its record
early, and no more does its header text. -/
structure Spellable (r : Record) : Prop where
  target_ne : r.target ≠ []
  target : terminator ∉ r.target
  header : ∀ h, r.header = .some h → terminator ∉ h ∧ sentinel ∉ h

/-- A record as it stands in a log, without the byte that ends it. -/
def body : Record → Bytes
  | ⟨target, .none⟩ => target
  | ⟨target, .some header⟩ => header ++ sentinel :: target

theorem spelling_eq (r : Record) : r.spelling = r.body ++ [terminator] := by
  obtain ⟨target, _ | header⟩ := r
  · rfl
  · simp [spelling, body]

theorem Spellable.terminator_not_mem {r : Record} (h : r.Spellable) : terminator ∉ r.body := by
  obtain ⟨target, _ | header⟩ := r
  · exact h.target
  · simp only [body, List.mem_append, List.mem_cons, not_or]
    exact ⟨(h.header header rfl).1, by decide, h.target⟩

/-- A record with a header is read back where headers are embedded, one without where they are
not. -/
theorem Spellable.split_body {r : Record} (h : r.Spellable) : split r.header.isSome r.body = r := by
  obtain ⟨target, _ | header⟩ := r
  · rfl
  · simp only [split, body, Option.isSome_some, if_true, List.cutAt_append (h.header header rfl).2]

theorem checkTarget_eq_ok_iff {bs target : Bytes} :
    checkTarget bs = .ok target ↔ bs = target ∧ target ≠ [] ∧ terminator ∉ target := by
  rw [checkTarget, ite_eq_ok_iff]
  refine and_congr_right ?_
  intro heq
  subst heq
  simp

theorem checkHeader_eq_ok_iff {bs header : Bytes} :
    checkHeader bs = .ok header ↔ bs = header ∧ terminator ∉ header ∧ sentinel ∉ header := by
  rw [checkHeader, ite_eq_ok_iff]
  refine and_congr_right ?_
  intro heq
  subst heq
  simp

/-- What can be composed to a record: data with bytes that make a record that can be written. -/
theorem compose_eq_ok_iff {target : Datum} {header : Option Datum} {r : Record} :
    compose target header = .ok r ↔
      target.toBytes = .ok r.target ∧ header.map Datum.toBytes = r.header.map .ok ∧ r.Spellable := by
  unfold compose
  simp only [bind_eq_ok_iff, mapError_eq_ok_iff, checkTarget_eq_ok_iff]
  cases header with
  | none =>
    constructor
    · rintro ⟨_, hbs, _, ⟨rfl, hne, hnul⟩, hr⟩
      cases hr
      exact ⟨hbs, rfl, hne, hnul, nofun⟩
    · rintro ⟨hbs, hheader, h⟩
      obtain ⟨target, _ | header⟩ := r
      · exact ⟨_, hbs, _, ⟨rfl, h.target_ne, h.target⟩, rfl⟩
      · cases hheader
  | some d =>
    simp only [bind_eq_ok_iff, mapError_eq_ok_iff, checkHeader_eq_ok_iff]
    constructor
    · rintro ⟨_, hbs, _, ⟨rfl, hne, hnul⟩, _, hhs, _, ⟨rfl, hheader⟩, hr⟩
      cases hr
      exact ⟨hbs, congrArg Option.some hhs, hne, hnul, fun _ he => Option.some.inj he ▸ hheader⟩
    · rintro ⟨hbs, hheader, h⟩
      obtain ⟨target, _ | header⟩ := r
      · cases hheader
      · exact ⟨_, hbs, _, ⟨rfl, h.target_ne, h.target⟩, _, Option.some.inj hheader, _,
          ⟨rfl, h.header header rfl⟩, rfl⟩

end Record

/-! ## Lists of records -/

namespace Scan

open Record

variable {rs : List Record}

/-- A log of written records is cut into them. -/
theorem pieces_spellings (h : ∀ r ∈ rs, r.Spellable) : pieces (rs.flatMap spelling) = rs.map body := by
  induction rs with
  | nil => rfl
  | cons r rs ih =>
    rw [List.flatMap_cons, spelling_eq, List.append_assoc, List.singleton_append,
      pieces_terminated (h r List.mem_cons_self).terminator_not_mem,
      ih fun q hq => h q (List.mem_cons_of_mem _ hq), List.map_cons]

theorem targeted_spellings {e : Bool} (h : ∀ r ∈ rs, r.Spellable) :
    targeted e (rs.flatMap spelling) = withTarget e (rs.map body) := by
  rw [targeted, pieces_spellings h]

/-- Records that are read back as they are make the requests of their log. -/
theorem requests_spellings {e : Bool} (h : ∀ r ∈ rs, r.Spellable) (he : ∀ r ∈ rs, split e r.body = r) :
    requests e (rs.flatMap spelling) = rs.map decoded := by
  have hsplit : (rs.map body).map (split e) = rs := by
    rw [List.map_map]
    exact (List.map_congr_left he).trans (List.map_id rs)
  have hfilter : rs.filter (!·.target.isEmpty) = rs :=
    List.filter_eq_self.2 fun r hr => by simpa using (h r hr).target_ne
  rw [requests, targeted_spellings h, withTarget, hsplit, hfilter]

end Scan

namespace Writer

open Record

variable {t : Tree} {path : Text} {token : Bytes} {ps : List (Datum × Option Datum)} {rs : List Record}

theorem encode_composed (h : (ps.map fun p => compose p.1 p.2) = rs.map .ok) :
    (ps.map fun p => encode p.1 p.2) = (rs.map spelling).map .ok := by
  have hencode := congrArg (List.map (Except.map spelling)) h
  rw [List.map_map, List.map_map] at hencode
  rw [List.map_map]
  exact hencode

theorem encodeAll_composed (h : (ps.map fun p => compose p.1 p.2) = rs.map .ok) :
    encodeAll ps = (rs.flatMap spelling, rs.length, .none) := by
  rw [encodeAll_encoded (encode_composed h), List.length_map]; rfl

theorem exists_encode_iff {target : Datum} {header : Option Datum} :
    (∃ bs, encode target header = .ok bs) ↔ ∃ r, compose target header = .ok r := by
  unfold encode
  rcases compose target header with f | r
  · exact iff_of_false nofun nofun
  · exact iff_of_true ⟨_, rfl⟩ ⟨_, rfl⟩

/-- **At a writable path writing succeeds if and only if each record can be written,** and then the
path leads to the spellings of the records. -/
theorem write_cases (hw : Writable t path token) (ps : List (Datum × Option Datum)) :
    (∃ (rs : List Record) (t' : Tree), (ps.map fun p => compose p.1 p.2) = rs.map .ok ∧
        write t path token ps = (t', .ok rs.length) ∧ t'.lookup path = .ok (.file (rs.flatMap spelling))) ∨
      (¬ ∀ p ∈ ps, ∃ r, compose p.1 p.2 = .ok r) ∧ ∃ f, write t path token ps = (t, .error f) := by
  by_cases h : ∀ p ∈ ps, ∃ r, compose p.1 p.2 = .ok r
  · obtain ⟨rs, hrs⟩ := exists_map_ok_iff.2 h
    obtain ⟨t', hwrite, hreplaced⟩ := write_replaces hw (encodeAll_composed hrs)
    exact .inl ⟨rs, t', hrs, hwrite, hreplaced.found⟩
  · have hsome : (encodeAll ps).2.2 ≠ .none := fun hnone =>
      h fun p hp => exists_encode_iff.1 (encodeAll_eq_none_iff.1 hnone p hp)
    obtain ⟨f, hf⟩ := Option.ne_none_iff_exists'.1 hsome
    obtain ⟨directory, hd⟩ := hw.temporary
    exact .inr ⟨h, f, write_refused hd hf⟩

end Writer

namespace Generator

open Record Scan

/-- A generator gets ready on a log and answers with some records in order, and it goes on from the
front of the log first on the request after them. -/
structure Replays (g : Generator) (t : Tree) (c : Change) (rs : List Record) : Prop where
  ready : ∃ n, (g.openLog t c).2 = .ok n
  answers : ∀ k r, rs[k]? = .some r →
    ((g.openLog t c).1.after k).produce.result = .ok r ∧ ((g.openLog t c).1.after k).produce.wraps = 0
  wraps : ((g.openLog t c).1.after rs.length).produce.wraps = 1

theorem Fresh.replays_requests {g : Generator} {t : Tree} {c : Change} {path : Text} {bs : Bytes} (hg : g.Fresh)
    (hpath : (g.apply c).path = .some path) (hfile : t.lookup path = .ok (.file bs))
    (hne : requests (g.apply c).embedded bs ≠ []) : g.Replays t c (requests (g.apply c).embedded bs) := by
  have hlog : bs ≠ [] := by
    intro hnil
    rw [hnil] at hne
    exact hne rfl
  have hfront := hg.atFront c ⟨path, bs, false⟩
  have hopen := hg.openLog hpath hfile hlog
  refine ⟨⟨_, congrArg Prod.snd hopen⟩, ?_, ?_⟩
  · intro k r hr
    have hk := (List.getElem?_eq_some_iff.1 hr).1
    rw [hopen]
    refine ⟨(hfront.cycle ?_).1, hfront.wraps_first hk⟩
    exact (Nat.mod_eq_of_lt hk).symm ▸ hr
  · rw [hopen]
    exact hfront.wraps_again hne

/-- **A log of written records is replayed as it was written,** if each of them is read back as it
is. -/
theorem Fresh.replays {g : Generator} {t : Tree} {c : Change} {path : Text} {rs : List Record} (hg : g.Fresh)
    (hpath : (g.apply c).path = .some path) (hfile : t.lookup path = .ok (.file (rs.flatMap spelling)))
    (hne : rs ≠ []) (h : ∀ r ∈ rs, r.Spellable) (he : ∀ r ∈ rs, split (g.apply c).embedded r.body = r) :
    g.Replays t c (rs.map decoded) := by
  have hrequests := requests_spellings h he
  have hnonempty : requests (g.apply c).embedded (rs.flatMap spelling) ≠ [] := by
    rw [hrequests]; simpa using hne
  exact hrequests ▸ hg.replays_requests hpath hfile hnonempty

end Generator

/-! ## Writing, then replaying -/

/-- Data that can be the target of a record. -/
def Datum.IsTarget (d : Datum) : Prop := ∃ bs, d.toBytes = .ok bs ∧ bs ≠ [] ∧ terminator ∉ bs

/-- Data that can be the header text of a record. -/
def Datum.IsHeader (d : Datum) : Prop := ∃ bs, d.toBytes = .ok bs ∧ terminator ∉ bs ∧ sentinel ∉ bs

namespace Record

theorem exists_compose_none_iff {d : Datum} : (∃ r, compose d .none = .ok r) ↔ d.IsTarget := by
  constructor
  · rintro ⟨r, hr⟩
    obtain ⟨hbs, _, hr⟩ := compose_eq_ok_iff.1 hr
    exact ⟨_, hbs, hr.target_ne, hr.target⟩
  · rintro ⟨bs, hbs, hne, hnul⟩
    exact ⟨⟨bs, .none⟩, compose_eq_ok_iff.2 ⟨hbs, rfl, hne, hnul, nofun⟩⟩

theorem exists_compose_some_iff {d h : Datum} : (∃ r, compose d (.some h) = .ok r) ↔ d.IsTarget ∧ h.IsHeader := by
  constructor
  · rintro ⟨⟨target, _ | header⟩, hr⟩
    · cases (compose_eq_ok_iff.1 hr).2.1
    · obtain ⟨hbs, hhs, hr⟩ := compose_eq_ok_iff.1 hr
      exact ⟨⟨_, hbs, hr.target_ne, hr.target⟩, _, Option.some.inj hhs, hr.header header rfl⟩
  · rintro ⟨⟨bs, hbs, hne, hnul⟩, hs, hhs, hheader⟩
    exact ⟨⟨bs, .some hs⟩, compose_eq_ok_iff.2
      ⟨hbs, congrArg Option.some hhs, hne, hnul, fun _ he => Option.some.inj he ▸ hheader⟩⟩

end Record

namespace Writer

open Record Generator

variable {t : Tree} {path : Text} {token : Bytes} {ps : List (Datum × Option Datum)} {targets headers : List Datum}

/-- **What is written is replayed,** where headers are embedded for all targets or for none. -/
theorem write_replays {e : Bool} (hw : Writable t path token) (hne : ps ≠ []) (he : ∀ p ∈ ps, p.2.isSome = e) :
    ((∃ n, (write t path token ps).2 = .ok n) ↔ ∀ p ∈ ps, ∃ r, compose p.1 p.2 = .ok r) ∧
      ∀ n, (write t path token ps).2 = .ok n → n = ps.length ∧
        ∃ rs : List Record, (ps.map fun p => compose p.1 p.2) = rs.map .ok ∧
          ∀ (g : Generator) (c : Change), g.Fresh → (g.apply c).path = .some path → (g.apply c).embedded = e →
            g.Replays (write t path token ps).1 c (rs.map decoded) := by
  rcases write_cases hw ps with ⟨rs, t', hrs, hwrite, hlookup⟩ | ⟨hbad, f, hwrite⟩
  · rw [hwrite]
    have hlength : rs.length = ps.length := by simpa using (congrArg List.length hrs).symm
    refine ⟨iff_of_true ⟨_, rfl⟩ (exists_map_ok_iff.1 ⟨rs, hrs⟩), ?_⟩
    intro n hn
    cases hn
    refine ⟨hlength, rs, hrs, ?_⟩
    intro g c hg hpath hembedded
    have hrecords : ∀ r ∈ rs, r.Spellable ∧ split (g.apply c).embedded r.body = r := by
      intro r hr
      obtain ⟨p, hp, hpr⟩ := List.mem_map.1 (hrs ▸ List.mem_map_of_mem hr)
      obtain ⟨_, hheader, hr⟩ := compose_eq_ok_iff.1 hpr
      have hsome := congrArg Option.isSome hheader
      rw [Option.isSome_map, Option.isSome_map, he p hp, ← hembedded] at hsome
      exact ⟨hr, hsome ▸ hr.split_body⟩
    have hrs_ne : rs ≠ [] := List.length_pos_iff.1 (hlength ▸ List.length_pos_iff.2 hne)
    exact hg.replays hpath hlookup hrs_ne (fun r hr => (hrecords r hr).1) fun r hr => (hrecords r hr).2
  · rw [hwrite]
    exact ⟨iff_of_false (by simp) hbad, fun n hn => by cases hn⟩

theorem composed_plain {rs : List Record}
    (h : ((pairs targets .none).map fun p => compose p.1 p.2) = rs.map .ok) :
    ∃ bss : List Bytes, targets.map Datum.toBytes = bss.map .ok ∧ rs = bss.map fun bs => ⟨bs, .none⟩ := by
  induction targets generalizing rs with
  | nil => exact ⟨[], rfl, by simpa [pairs] using h⟩
  | cons d targets ih =>
    obtain ⟨r, rs, rfl, hr, hrs⟩ := List.map_eq_cons_iff.1 h.symm
    obtain ⟨bss, hbss, rfl⟩ := ih hrs.symm
    obtain ⟨hbs, hheader, _⟩ := compose_eq_ok_iff.1 hr.symm
    obtain ⟨bs, _ | _⟩ := r
    · exact ⟨bs :: bss, by rw [List.map_cons, hbss, hbs]; rfl, rfl⟩
    · cases hheader

theorem composed_headed {rs : List Record} (hlength : headers.length = targets.length)
    (h : ((pairs targets (.some (headers.map .some))).map fun p => compose p.1 p.2) = rs.map .ok) :
    ∃ bss hss : List Bytes, targets.map Datum.toBytes = bss.map .ok ∧ headers.map Datum.toBytes = hss.map .ok ∧
      rs = List.zipWith (fun bs hs => ⟨bs, .some hs⟩) bss hss := by
  induction targets generalizing headers rs with
  | nil =>
    obtain rfl := List.length_eq_zero_iff.1 hlength
    exact ⟨[], [], rfl, rfl, by simpa [pairs] using h⟩
  | cons d targets ih =>
    obtain ⟨header, headers, rfl⟩ := List.exists_cons_of_length_eq_add_one hlength
    obtain ⟨r, rs, rfl, hr, hrs⟩ := List.map_eq_cons_iff.1 h.symm
    obtain ⟨bss, hss, hbss, hhss, rfl⟩ := ih (Nat.succ.inj hlength) hrs.symm
    obtain ⟨hbs, hheader, _⟩ := compose_eq_ok_iff.1 hr.symm
    obtain ⟨bs, _ | hs⟩ := r
    · cases hheader
    · have hhs : header.toBytes = .ok hs := Option.some.inj hheader
      refine ⟨bs :: bss, hs :: hss, ?_, ?_, rfl⟩
      · rw [List.map_cons, hbss, hbs]; rfl
      · rw [List.map_cons, hhss, hhs]; rfl

theorem composable_plain :
    (∀ p ∈ pairs targets .none, ∃ r, compose p.1 p.2 = .ok r) ↔ ∀ d ∈ targets, d.IsTarget := by
  simp only [pairs, List.forall_mem_map, exists_compose_none_iff]

theorem composable_headed (hlength : headers.length = targets.length) :
    (∀ p ∈ pairs targets (.some (headers.map .some)), ∃ r, compose p.1 p.2 = .ok r) ↔
      (∀ d ∈ targets, d.IsTarget) ∧ ∀ d ∈ headers, d.IsHeader := by
  induction targets generalizing headers with
  | nil =>
    obtain rfl := List.length_eq_zero_iff.1 hlength
    simp [pairs]
  | cons d targets ih =>
    obtain ⟨header, headers, rfl⟩ := List.exists_cons_of_length_eq_add_one hlength
    have ih := ih (Nat.succ.inj hlength)
    simp only [pairs] at ih
    simp only [pairs, List.map_cons, List.zip_cons_cons, List.forall_mem_cons, exists_compose_some_iff, ih]
    exact and_and_and_comm

/-- **A log is written if and only if each of its targets and headers can be, and is replayed as it
was written.** With a header text for each target, a generator that takes headers from the log
answers with each target and its decoded header, in order, and first goes on from the front after
them all; without header texts, one that takes the records as they are answers with the targets. -/
theorem written_log_replays (hw : Writable t path token) (hne : targets ≠ []) :
    (∀ headers : List Datum, headers.length = targets.length →
      let out := write t path token (pairs targets (.some (headers.map .some)))
      ((∃ n, out.2 = .ok n) ↔ (∀ d ∈ targets, d.IsTarget) ∧ ∀ d ∈ headers, d.IsHeader) ∧
      ∀ n, out.2 = .ok n → n = targets.length ∧
        ∃ bss hss : List Bytes, targets.map Datum.toBytes = bss.map .ok ∧ headers.map Datum.toBytes = hss.map .ok ∧
          ∀ (g : Generator) (c : Change), g.Fresh → (g.apply c).path = .some path → (g.apply c).embedded = true →
            g.Replays out.1 c (List.zipWith (fun bs hs => decoded ⟨bs, .some hs⟩) bss hss)) ∧
    let out := write t path token (pairs targets .none)
    ((∃ n, out.2 = .ok n) ↔ ∀ d ∈ targets, d.IsTarget) ∧
    ∀ n, out.2 = .ok n → n = targets.length ∧
      ∃ bss : List Bytes, targets.map Datum.toBytes = bss.map .ok ∧
        ∀ (g : Generator) (c : Change), g.Fresh → (g.apply c).path = .some path → (g.apply c).embedded = false →
          g.Replays out.1 c (bss.map fun bs => ⟨bs, .none⟩) := by
  refine ⟨?_, ?_⟩
  · intro headers hlength
    have hpairs : ∀ p ∈ pairs targets (.some (headers.map .some)), p.2.isSome = true := by
      intro p hp
      obtain ⟨header, _, hheader⟩ := List.mem_map.1 (List.of_mem_zip hp).2
      rw [← hheader]; rfl
    have hcount : (pairs targets (.some (headers.map .some))).length = targets.length := by simp [pairs, hlength]
    have hpairs_ne := List.length_pos_iff.1 (hcount ▸ List.length_pos_iff.2 hne)
    obtain ⟨hiff, hreplays⟩ := write_replays hw hpairs_ne hpairs
    refine ⟨hiff.trans (composable_headed hlength), ?_⟩
    intro n hn
    obtain ⟨rfl, rs, hrs, hg⟩ := hreplays n hn
    obtain ⟨bss, hss, hbss, hhss, rfl⟩ := composed_headed hlength hrs
    rw [List.map_zipWith] at hg
    exact ⟨hcount, bss, hss, hbss, hhss, hg⟩
  · have hpairs : ∀ p ∈ pairs targets .none, p.2.isSome = false := by
      intro p hp
      obtain ⟨d, _, rfl⟩ := List.mem_map.1 hp
      rfl
    have hcount : (pairs targets .none).length = targets.length := List.length_map _
    have hpairs_ne := List.length_pos_iff.1 (hcount ▸ List.length_pos_iff.2 hne)
    obtain ⟨hiff, hreplays⟩ := write_replays hw hpairs_ne hpairs
    refine ⟨hiff.trans composable_plain, ?_⟩
    intro n hn
    obtain ⟨rfl, rs, hrs, hg⟩ := hreplays n hn
    obtain ⟨bss, hbss, rfl⟩ := composed_plain hrs
    rw [List.map_map] at hg
    exact ⟨hcount, bss, hbss, hg⟩

theorem written_log_replays_two :
    let t : Tree := ⟨[], []⟩
    let targets : List Datum := [.bytes [47, 1, 120], .text "/y"]
    let headers : List Datum := [.text "", .bytes [97, 92]]
    let out := write t "log" [49] (pairs targets (.some (headers.map .some)))
    let g : Generator := { path := .some "log", embedded := true }
    Writable t "log" [49] ∧ out.2 = .ok 2 ∧ g.Replays out.1 {} [⟨[47, 1, 120], .none⟩, ⟨[47, 121], .some [97]⟩] := by
  intro t targets headers out g
  have hw : Writable t "log" [49] := writable_log
  have hne : targets ≠ [] := List.cons_ne_nil _ _
  obtain ⟨hheaded, _⟩ := written_log_replays hw hne
  obtain ⟨hiff, hreplays⟩ := hheaded headers rfl
  have htargets : ∀ d ∈ targets, d.IsTarget := by
    simp only [targets, List.forall_mem_cons]
    exact ⟨⟨_, rfl, by decide, by decide⟩, ⟨_, rfl, by decide, by decide⟩, nofun⟩
  have hheaders : ∀ d ∈ headers, d.IsHeader := by
    simp only [headers, List.forall_mem_cons]
    exact ⟨⟨_, rfl, by decide, by decide⟩, ⟨_, rfl, by decide, by decide⟩, nofun⟩
  obtain ⟨n, hn⟩ := hiff.2 ⟨htargets, hheaders⟩
  obtain ⟨rfl, bss, hss, hbss, hhss, hg⟩ := hreplays n hn
  have hinj : ∀ a b : Bytes, (Except.ok a : Except EncodeFault Bytes) = .ok b → a = b := fun _ _ => Except.ok.inj
  obtain rfl : [[47, 1, 120], [47, 121]] = bss := (List.map_inj_right hinj).1 hbss
  obtain rfl : [[], [97, 92]] = hss := (List.map_inj_right hinj).1 hhss
  have hdecoded : List.zipWith (fun bs hs => Record.decoded ⟨bs, .some hs⟩) [[47, 1, 120], [47, 121]]
      [[], [97, 92]] = [⟨[47, 1, 120], .none⟩, ⟨[47, 121], .some [97]⟩] := by
    decide +kernel
  exact ⟨hw, hn, hdecoded ▸ hg g {} ⟨rfl, rfl⟩ rfl rfl⟩

end Writer

end RequestLog
