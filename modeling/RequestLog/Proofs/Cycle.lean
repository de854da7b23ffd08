/-
A generator goes through the requests of its log in a cycle. `Standing` says
where it is: how often it has gone on from the front, and how many requests
it has answered since. One request takes it a place further, or at the end
to the first place of the next pass (`Standing.next`, `Standing.wrap`), so
that its place after any number of requests is a matter of division
(`Served`).
-/
import RequestLog.Proofs.Search
import RequestLog.Session

namespace RequestLog

/-- A record with its header text decoded; a text that stands for nothing is no header. -/
def Record.decoded (r : Record) : Record :=
  { r with header := r.header.bind fun raw =>
      let bs := (Escape.unescape raw Escape.logSource).value
      if bs = [] then .none else .some bs }

/-- The requests that a log stands for, in order: its records with a target, their headers
decoded. -/
def Scan.requests (embedded : Bool) (log : Bytes) : List Record := (targeted embedded log).map Record.decoded

namespace Generator

open Scan

/-! ## A single request -/

theorem decodeHeader_value (r : Record) : (decodeHeader r).value = r.decoded.header := by
  obtain ⟨target, _ | raw⟩ := r
  · rfl
  · simp [decodeHeader, Record.decoded, List.isEmpty_iff]

theorem produce_found {g : Generator} {log : LogFile} {c w n : Nat} {r : Record} (hs : g.stage = .ready log)
    (h : seek log.content g.embedded g.cursor false = ⟨c, w, n, .some r⟩) :
    g.produce.generator = { g with cursor := c, shutdown := g.shutdown || (0 < w && !g.loop) } ∧
      g.produce.wraps = w ∧ g.produce.reads = n ∧ g.produce.result = .ok r.decoded := by
  unfold produce
  rw [hs]
  simp [h, decodeHeader_value, Record.decoded]

theorem produce_lost {g : Generator} {log : LogFile} {c w n : Nat} (hs : g.stage = .ready log)
    (h : seek log.content g.embedded g.cursor false = ⟨c, w, n, .none⟩) :
    g.produce.generator = { g with cursor := c, shutdown := g.shutdown || (0 < w && !g.loop) } ∧
      g.produce.wraps = w ∧ g.produce.reads = n ∧ g.produce.result = .error (.noRecords log.path) := by
  unfold produce
  rw [hs]
  simp [h]

theorem produce_refused {g : Generator} (h : ∀ log, g.stage ≠ .ready log) :
    g.produce = { generator := g, result := .error (.wrongStage .produce g.stage.name) } := by
  unfold produce
  split
  · rename_i log hs; exact absurd hs (h log)
  · rfl

/-- A request moves the cursor of a generator and notes that it has asked for a shutdown; it changes
nothing else. -/
theorem produce_generator (g : Generator) : ∃ c, g.produce.generator =
    { g with cursor := c, shutdown := g.shutdown || (0 < g.produce.wraps && !g.loop) } := by
  by_cases h : ∃ log, g.stage = .ready log
  · obtain ⟨log, hs⟩ := h
    rcases hseek : seek log.content g.embedded g.cursor false with ⟨c, w, n, _ | r⟩
    · obtain ⟨hg, hw, _⟩ := produce_lost hs hseek
      exact ⟨c, by rw [hg, hw]⟩
    · obtain ⟨hg, hw, _⟩ := produce_found hs hseek
      exact ⟨c, by rw [hg, hw]⟩
  · rw [produce_refused (not_exists.1 h)]
    exact ⟨g.cursor, by simp⟩

theorem produce_stage (g : Generator) : g.produce.generator.stage = g.stage := by
  obtain ⟨_, h⟩ := g.produce_generator
  rw [h]

theorem produce_asks (g : Generator) : g.produce.asks = if g.loop then 0 else g.produce.wraps := by
  obtain ⟨c, h⟩ := g.produce_generator
  rw [Production.asks, h]

theorem produce_shutdown (g : Generator) :
    g.produce.generator.shutdown = (g.shutdown || 0 < g.produce.asks) := by
  obtain ⟨c, h⟩ := g.produce_generator
  rw [produce_asks, h]
  cases g.loop <;> simp

/-! ## Requests one after the other -/

/-- A generator after some requests. -/
def after (g : Generator) : Nat → Generator
  | 0 => g
  | k + 1 => (g.after k).produce.generator

/-- How often a generator goes on from the front in its first requests. -/
def wrapsWithin (g : Generator) : Nat → Nat
  | 0 => 0
  | k + 1 => g.wrapsWithin k + (g.after k).produce.wraps

theorem after_generator (g : Generator) (k : Nat) : ∃ c b, g.after k = { g with cursor := c, shutdown := b } := by
  induction k with
  | zero => exact ⟨g.cursor, g.shutdown, rfl⟩
  | succ k ih =>
    obtain ⟨_, _, hk⟩ := ih
    obtain ⟨c, h⟩ := (g.after k).produce_generator
    exact ⟨c, _, by rw [after, h, hk]⟩

theorem after_stage (g : Generator) (k : Nat) : (g.after k).stage = g.stage := by
  obtain ⟨_, _, h⟩ := g.after_generator k
  rw [h]

theorem after_loop (g : Generator) (k : Nat) : (g.after k).loop = g.loop := by
  obtain ⟨_, _, h⟩ := g.after_generator k
  rw [h]

theorem after_embedded (g : Generator) (k : Nat) : (g.after k).embedded = g.embedded := by
  obtain ⟨_, _, h⟩ := g.after_generator k
  rw [h]

theorem after_listener (g : Generator) (k : Nat) : (g.after k).listener = g.listener := by
  obtain ⟨_, _, h⟩ := g.after_generator k
  rw [h]

/-! ## Places in a log -/

/-- A generator ready with a log, its cursor between records. -/
structure Reading (g : Generator) (log : LogFile) : Prop where
  stage : g.stage = .ready log
  boundary : AtBoundary log.content g.cursor

/-- A generator that has gone on from the front `pass` times and answered `place` requests since. -/
structure Standing (g : Generator) (log : LogFile) (pass place : Nat) : Prop extends Reading g log where
  ahead : targeted g.embedded (log.content.drop g.cursor) = (targeted g.embedded log.content).drop place
  shutdown : g.shutdown = (0 < pass && !g.loop)

variable {g : Generator} {log : LogFile} {pass place : Nat}

theorem Standing.next {r : Record} (h : g.Standing log pass place)
    (hr : (requests g.embedded log.content)[place]? = .some r) :
    g.produce.result = .ok r ∧ g.produce.wraps = 0 ∧ g.produce.generator.Standing log pass (place + 1) := by
  rw [requests, List.getElem?_map] at hr
  obtain ⟨r, hget, rfl⟩ := Option.map_eq_some_iff.1 hr
  obtain ⟨hlt, hget⟩ := List.getElem?_eq_some_iff.1 hget
  have hahead := h.ahead.trans (List.drop_eq_getElem_cons hlt)
  obtain ⟨c, n, hc, hmore, _, hseek⟩ := seek_ahead h.boundary (hget ▸ hahead) false
  obtain ⟨hg, hw, _, hres⟩ := produce_found h.stage hseek
  refine ⟨hres, hw, ?_⟩
  rw [hg]
  exact ⟨⟨h.stage, hc⟩, hmore, by simp [h.shutdown]⟩

theorem Standing.wrap {r : Record} (h : g.Standing log pass (requests g.embedded log.content).length)
    (hr : (requests g.embedded log.content)[0]? = .some r) :
    g.produce.result = .ok r ∧ g.produce.wraps = 1 ∧ g.produce.generator.Standing log (pass + 1) 1 := by
  rw [requests, List.getElem?_map] at hr
  obtain ⟨r, hget, rfl⟩ := Option.map_eq_some_iff.1 hr
  obtain ⟨more, hall⟩ : ∃ more, targeted g.embedded log.content = r :: more := by
    cases htargets : targeted g.embedded log.content <;> simp_all
  have hahead := h.ahead.trans (List.drop_eq_nil_of_le (by simp [requests]))
  obtain ⟨c, n, hc, hmore, _, hseek⟩ := seek_again h.boundary hahead hall
  obtain ⟨hg, hw, _, hres⟩ := produce_found h.stage hseek
  refine ⟨hres, hw, ?_⟩
  rw [hg]
  refine ⟨⟨h.stage, hc⟩, by simp [hmore, hall], ?_⟩
  cases hl : g.loop <;> simp [h.shutdown, hl]

/-! ## A cycle of requests -/

theorem exists_request {requests : List Record} (hne : requests ≠ []) (k : Nat) :
    ∃ r, requests[k % requests.length]? = .some r :=
  ⟨_, List.getElem?_eq_getElem (Nat.mod_lt k (List.length_pos_iff.2 hne))⟩

/-- A generator that has answered `k` requests: it stands `place` requests into a pass that follows
`pass` whole ones, and no later pass begins before it is asked for. -/
structure Served (g : Generator) (log : LogFile) (k pass place : Nat) : Prop where
  standing : g.Standing log pass place
  count : k = pass * (requests g.embedded log.content).length + place
  place_le : place ≤ (requests g.embedded log.content).length
  begun : 0 < pass → 0 < place

theorem Served.produce {k : Nat} {r : Record} (h : g.Served log k pass place)
    (hr : (requests g.embedded log.content)[k % (requests g.embedded log.content).length]? = .some r) :
    g.produce.result = .ok r ∧
      ∃ place', g.produce.generator.Served log (k + 1) (pass + g.produce.wraps) place' ∧
        pass + g.produce.wraps = k / (requests g.embedded log.content).length := by
  obtain ⟨c, hg⟩ := g.produce_generator
  have he : g.produce.generator.embedded = g.embedded := by rw [hg]
  have hpos : 0 < (requests g.embedded log.content).length :=
    Nat.lt_of_le_of_lt (Nat.zero_le _) (List.getElem?_eq_some_iff.1 hr).1
  have hcount := h.count
  rcases Nat.lt_or_eq_of_le h.place_le with hlt | heq
  · have hmod : k % (requests g.embedded log.content).length = place := by
      rw [hcount, Nat.mul_comm, Nat.mul_add_mod, Nat.mod_eq_of_lt hlt]
    have hdiv : k / (requests g.embedded log.content).length = pass := by
      rw [hcount, Nat.mul_comm, Nat.mul_add_div hpos, Nat.div_eq_of_lt hlt, Nat.add_zero]
    obtain ⟨hres, hw, hst⟩ := h.standing.next (hmod ▸ hr)
    simp only [hw, Nat.add_zero]
    exact ⟨hres, place + 1, ⟨hst, by rw [he]; omega, by rw [he]; omega, fun _ => Nat.succ_pos _⟩, hdiv.symm⟩
  · subst heq
    have hk : k = (pass + 1) * (requests g.embedded log.content).length := by rw [hcount, Nat.succ_mul]
    obtain ⟨hres, hw, hst⟩ := h.standing.wrap (by rwa [hk, Nat.mul_mod_left] at hr)
    rw [hw]
    refine ⟨hres, 1, ⟨hst, by rw [he, hk], by rw [he]; omega, fun _ => Nat.one_pos⟩, ?_⟩
    rw [hk, Nat.mul_div_cancel _ hpos]

/-- Having answered `k` requests a generator has begun a pass for each time it needed one. -/
theorem Served.pass_pos_iff {k : Nat} (h : g.Served log k pass place) :
    0 < pass ↔ (requests g.embedded log.content).length < k := by
  have hcount := h.count
  constructor
  · intro hp
    have := h.begun hp
    have := Nat.le_mul_of_pos_left (requests g.embedded log.content).length hp
    omega
  · intro hlt
    have := h.place_le
    refine Nat.pos_of_ne_zero ?_
    intro hp
    rw [hp, Nat.zero_mul] at hcount
    omega

/-- A generator ready at the front of its log, with nothing asked for. -/
structure AtFront (g : Generator) (log : LogFile) : Prop where
  stage : g.stage = .ready log
  cursor : g.cursor = 0
  shutdown : g.shutdown = false

theorem AtFront.reading (h : g.AtFront log) : g.Reading log := ⟨h.stage, h.cursor ▸ atBoundary_zero _⟩

theorem AtFront.served (h : g.AtFront log) : g.Served log 0 0 0 where
  standing := ⟨h.reading, by simp [h.cursor], by simp [h.shutdown]⟩
  count := by simp
  place_le := Nat.zero_le _
  begun := id

theorem AtFront.after_served (h : g.AtFront log) (hne : requests g.embedded log.content ≠ []) (k : Nat) :
    ∃ place, (g.after k).Served log k (g.wrapsWithin k) place := by
  induction k with
  | zero => exact ⟨0, h.served⟩
  | succ k ih =>
    obtain ⟨_, hk⟩ := ih
    obtain ⟨r, hr⟩ := exists_request hne k
    obtain ⟨_, place, hserved, _⟩ := hk.produce (by rwa [after_embedded])
    exact ⟨place, hserved⟩

/-- A generator that does not loop has asked for a shutdown once it has answered more requests than
its log has. -/
theorem AtFront.after_shutdown (h : g.AtFront log) (hne : requests g.embedded log.content ≠ []) (k : Nat) :
    (g.after k).shutdown = ((requests g.embedded log.content).length < k && !g.loop) := by
  obtain ⟨_, hk⟩ := h.after_served hne k
  have hpass := hk.pass_pos_iff
  rw [after_embedded] at hpass
  rw [hk.standing.shutdown, after_loop]
  simp only [hpass]

/-- **The requests of a generator go through its log in a cycle,** and when request number `k` is
answered it has gone on from the front as often as whole cycles fit into `k`. -/
theorem AtFront.cycle (h : g.AtFront log) {k : Nat} {r : Record}
    (hr : (requests g.embedded log.content)[k % (requests g.embedded log.content).length]? = .some r) :
    (g.after k).produce.result = .ok r ∧
      g.wrapsWithin (k + 1) = k / (requests g.embedded log.content).length := by
  have hne : requests g.embedded log.content ≠ [] := by
    intro hnil
    simp [hnil] at hr
  obtain ⟨_, hk⟩ := h.after_served hne k
  obtain ⟨hres, _, _, hpass⟩ := hk.produce (by rwa [after_embedded])
  rw [after_embedded] at hpass
  exact ⟨hres, hpass⟩

/-- In its first pass a generator does not go on from the front. -/
theorem AtFront.wraps_first (h : g.AtFront log) {k : Nat} (hk : k < (requests g.embedded log.content).length) :
    (g.after k).produce.wraps = 0 := by
  obtain ⟨r, hr⟩ := exists_request (List.length_pos_iff.1 (Nat.zero_lt_of_lt hk)) k
  have hwraps := (h.cycle hr).2
  rw [wrapsWithin, Nat.div_eq_of_lt hk] at hwraps
  exact (Nat.add_eq_zero_iff.1 hwraps).2

/-- After its first pass it goes on from the front at once. -/
theorem AtFront.wraps_again (h : g.AtFront log) (hne : requests g.embedded log.content ≠ []) :
    (g.after (requests g.embedded log.content).length).produce.wraps = 1 := by
  have hpos := List.length_pos_iff.2 hne
  generalize hn : (requests g.embedded log.content).length = n at hpos
  obtain ⟨m, rfl⟩ : ∃ m, n = m + 1 := ⟨n - 1, by omega⟩
  obtain ⟨r, hr⟩ := exists_request hne m
  obtain ⟨r', hr'⟩ := exists_request hne (m + 1)
  have hbefore := (h.cycle hr).2
  have hafter := (h.cycle hr').2
  rw [hn, Nat.div_eq_of_lt (Nat.lt_succ_self m)] at hbefore
  rw [wrapsWithin, hbefore, hn, Nat.div_self hpos] at hafter
  omega

end Generator

end RequestLog
