/-
Requests as a pattern of lines. Most parts of the pattern can be found in one
way only, so that a search for them goes on as the scanner does. A target is a
run of bytes that may hold the quote after it, and is given back byte by byte
until it ends at a quote; what is left then is what the scanner cuts off
(`search_target`). So both find the same requests (`search_requestPattern`).
-/
import RequestLog.Proofs.Backtracking
import RequestLog.Proofs.RequestLines

namespace RequestLog.AccessLog

open Pattern
open Bytes (Run run_takeWhile)

/-! ## The pattern -/

/-- The end of a request: a quote, maybe after a space and anything without a quote. -/
def closingPattern : Pattern := seq (maybe (seq (only 32) (many (· != 34)))) (seq (only 34) done)

/-- A word, of which the end of a request takes what it needs. -/
def targetPattern : Pattern := seq (group (plus isWord)) closingPattern

/-- A date in brackets, and what comes after it. -/
def datePattern (y : Pattern) : Pattern := seq (only 91) (seq (many (· != 93)) (seq (only 93) y))

/-- The pattern `\S+ \S+ \S+ \[[^\]]*\] "([A-Z]+) (\S+)(?: [^"]*)?"` -/
def requestPattern : Pattern :=
  seq (plus isWord) <| seq (only 32) <| seq (plus isWord) <| seq (only 32) <| seq (plus isWord) <| seq (only 32) <|
    datePattern <| seq (only 32) <| seq (only 34) <| seq (group (plus isUpper)) <| seq (only 32) targetPattern

/-- The request whose method and target are groups. -/
def ofGroups? : List Bytes → Option Request
  | [method, target] => .some ⟨method, target⟩
  | _ => .none

section Search

variable {α : Type} {g : List Bytes → Option α} {f : Bytes → α} {p : UInt8 → Bool} {bs w tail : Bytes}

theorem search_only (b : UInt8) (y : Pattern) (bs : Bytes) :
    (seq (only b) y).search bs (g ·.groups) = (after? b bs).bind fun rest => y.search rest (g ·.groups) := by
  cases bs with
  | nil => rfl
  | cons c bs => by_cases hc : c = b <;> simp [search, only, after?, hc]

/-- A run of bytes that are no spaces, and a space after it. -/
theorem search_plus_space {G : Bytes → List Bytes → List Bytes → Option α} (hp : p 32 = false) (y : Pattern)
    (bs : Bytes) :
    (plus p).search bs (fun m => (seq (only 32) y).search m.rest fun n => G m.taken m.groups n.groups) =
      (field? p bs).bind fun r => y.search r.2 fun n => G r.1 [] n.groups := by
  have hfails : ∀ taken b rest, p b = true →
      (seq (only 32) y).search (b :: rest) (fun n => G taken [] n.groups) = .none := by
    intro taken b rest hb
    have hne : b ≠ 32 := fun heq => by rw [heq, hp] at hb; cases hb
    rw [search_only (g := G taken [])]
    simp [after?, hne]
  rw [search_plus hfails, field?_eq]
  split
  · rfl
  · rw [search_only (g := G _ [])]
    cases after? 32 (bs.dropWhile p) <;> rfl

theorem search_field (hp : p 32 = false) (y : Pattern) (bs : Bytes) :
    (seq (plus p) (seq (only 32) y)).search bs (g ·.groups) =
      (field? p bs).bind fun r => y.search r.2 (g ·.groups) :=
  search_plus_space (G := fun _ before after => g (before ++ after)) hp y bs

theorem search_group (hp : p 32 = false) (y : Pattern) (bs : Bytes) :
    (seq (group (plus p)) (seq (only 32) y)).search bs (g ·.groups) =
      (field? p bs).bind fun r => y.search r.2 fun n => g (r.1 :: n.groups) :=
  search_plus_space (G := fun taken before after => g (taken :: before ++ after)) hp y bs

theorem cutAt_snd (c : UInt8) (bs : Bytes) : (bs.cutAt c).2 = after? c (bs.dropWhile (· != c)) := by
  induction bs with
  | nil => rfl
  | cons b bs ih => by_cases hb : b = c <;> simp [List.cutAt, after?, hb, ih]

theorem search_many_only (c : UInt8) (y : Pattern) (bs : Bytes) :
    (seq (many (· != c)) (seq (only c) y)).search bs (g ·.groups) =
      (bs.cutAt c).2.bind fun rest => y.search rest (g ·.groups) := by
  rw [search_many, search_only, cutAt_snd]
  intro b rest hb
  rw [search_only]
  simp_all [after?]

theorem search_date (y : Pattern) (bs : Bytes) :
    (datePattern y).search bs (g ·.groups) = (skipDate? bs).bind fun rest => y.search rest (g ·.groups) := by
  rw [datePattern, search_only, skipDate?, Option.bind_assoc]
  simp only [search_many_only]

/-- What comes after the end of a request. -/
def closing? (bs : Bytes) : Option Bytes := ((after? 32 bs).bind fun later => (later.cutAt 34).2).or (after? 34 bs)

theorem search_closing (bs : Bytes) :
    closingPattern.search bs (g ·.groups) = (closing? bs).bind fun _ => g [] := by
  have hspaced : (seq (seq (only 32) (many (· != 34))) (seq (only 34) done)).search bs (g ·.groups) =
      ((after? 32 bs).bind fun later => (later.cutAt 34).2).bind fun _ => g [] := by
    rw [search_seq_assoc, search_only, Option.bind_assoc]
    simp only [search_many_only]
    rfl
  change ((seq (seq (only 32) (many (· != 34))) (seq (only 34) done)).search bs (g ·.groups)).or
    ((seq (only 34) done).search bs (g ·.groups)) = _
  rw [hspaced, search_only, closing?]
  cases (after? 32 bs).bind fun later => (later.cutAt 34).2 with
  | none => rfl
  | some rest =>
    cases after? 34 bs with
    | none => exact Option.or_none
    | some _ => exact Option.or_self

theorem closing?_quote (rest : Bytes) : closing? (34 :: rest) = .some rest := rfl

theorem closing?_spaced (h : Spaced bs) : ∃ rest, closing? bs = .some rest := by
  obtain ⟨later, rfl, hquote⟩ := h
  obtain ⟨before, rest, rfl, hbefore⟩ := List.eq_append_cons_of_mem hquote
  refine ⟨rest, ?_⟩
  change ((before ++ 34 :: rest).cutAt 34).2.or _ = _
  rw [List.cutAt_append hbefore]
  rfl

theorem closing?_eq_none (hspaced : ¬ Spaced bs) (hquote : bs.head? ≠ .some 34) : closing? bs = .none := by
  cases bs with
  | nil => rfl
  | cons b rest =>
    have hb : b ≠ 34 := fun heq => hquote (congrArg Option.some heq)
    by_cases hspace : b = 32
    · subst hspace
      have hrest : 34 ∉ rest := fun hmem => hspaced ⟨rest, rfl, hmem⟩
      simp [closing?, after?, List.cutAt_of_not_mem hrest]
    · simp [closing?, after?, hb, hspace]

/-! ## Words given back -/

section Runs

variable {k : Match → Option α} {before after : Bytes}

/-- A run is found whole where its end can be closed. -/
theorem searchRun_whole (hk : ∀ taken rest, k ⟨taken, [], rest⟩ = (closing? rest).map fun _ => f taken)
    (hrun : Run p w tail) {rest : Bytes} (hclosing : closing? tail = .some rest) (taken : Bytes) :
    searchRun p k taken (w ++ tail) = .some (f (taken ++ w)) := by
  induction w generalizing taken with
  | nil => rw [List.nil_append, searchRun_stop hrun.stop, hk, hclosing, List.append_nil]; rfl
  | cons b w ih =>
    obtain ⟨hb, hw⟩ := List.forall_mem_cons.1 hrun.all
    rw [List.cons_append, searchRun, if_pos hb, ih ⟨hw, hrun.stop⟩, List.append_assoc]
    rfl

/-- Where nothing can be closed, nothing is found. -/
theorem searchRun_open (hk : ∀ taken rest, k ⟨taken, [], rest⟩ = (closing? rest).map fun _ => f taken)
    (hp : p 32 = false) (hrun : Run p w tail) (hclosing : closing? tail = .none) (hw : 34 ∉ w) (taken : Bytes) :
    searchRun p k taken (w ++ tail) = .none := by
  induction w generalizing taken with
  | nil => rw [List.nil_append, searchRun_stop hrun.stop, hk, hclosing]; rfl
  | cons b w ih =>
    obtain ⟨hb, hall⟩ := List.forall_mem_cons.1 hrun.all
    obtain ⟨hquote, hw⟩ := not_or.1 (mt List.mem_cons.2 hw)
    have hspaced : ¬ Spaced (b :: (w ++ tail)) := by
      rintro ⟨later, heq, _⟩
      cases heq
      rw [hp] at hb
      cases hb
    have hnone := closing?_eq_none hspaced (by simpa using Ne.symm hquote)
    rw [List.cons_append, searchRun, if_pos hb, ih ⟨hall, hrun.stop⟩ hw, hk, hnone]
    rfl

/-- Where only a quote of the run itself can close anything, the last one does. -/
theorem searchRun_quoted (hk : ∀ taken rest, k ⟨taken, [], rest⟩ = (closing? rest).map fun _ => f taken)
    (hp : p 32 = false) (hrun : Run p (before ++ 34 :: after) tail) (hclosing : closing? tail = .none)
    (hafter : 34 ∉ after) (taken : Bytes) :
    searchRun p k taken (before ++ 34 :: after ++ tail) = .some (f (taken ++ before)) := by
  induction before generalizing taken with
  | nil =>
    obtain ⟨hb, hall⟩ := List.forall_mem_cons.1 hrun.all
    rw [List.nil_append, List.cons_append, searchRun, if_pos hb,
      searchRun_open hk hp ⟨hall, hrun.stop⟩ hclosing hafter, hk, closing?_quote, List.append_nil]
    rfl
  | cons b before ih =>
    obtain ⟨hb, hall⟩ := List.forall_mem_cons.1 hrun.all
    rw [List.cons_append, List.cons_append, searchRun, if_pos hb, ih ⟨hall, hrun.stop⟩, List.append_assoc]
    rfl

end Runs

/-- Where nothing comes before the last quote, nothing is cut. -/
theorem upToLastQuote?_cons {b : UInt8} (h : 34 ∉ w) : upToLastQuote? (b :: w) = .none := by
  by_cases hb : b = 34
  · subst hb
    have hlast : upToLastQuote? ([] ++ 34 :: w) = _ := upToLastQuote?_append h
    exact hlast
  · exact upToLastQuote?_of_not_mem (by simpa [h] using Ne.symm hb)

/-- A search on from a word looks for the end of the request at each of its lengths, the longest first. -/
theorem search_target_cons (hg : ∀ t, g [t] = .some (f t)) {b : UInt8} (hb : isWord b = true) (bs : Bytes) :
    ∃ k : Match → Option α, targetPattern.search (b :: bs) (g ·.groups) = searchRun isWord k [] bs ∧
      ∀ taken rest, k ⟨taken, [], rest⟩ = (closing? rest).map fun _ => f (b :: taken) := by
  refine ⟨_, if_pos hb, ?_⟩
  intro taken rest
  refine (search_closing (g := fun groups => g ((b :: taken) :: groups)) rest).trans ?_
  rw [hg]
  cases closing? rest <;> rfl

theorem search_target_word (hg : ∀ t, g [t] = .some (f t)) {b : UInt8} (hb : isWord b = true)
    (hrun : Run isWord w tail) :
    targetPattern.search (b :: (w ++ tail)) (g ·.groups) = (target? (b :: (w ++ tail))).map f := by
  have hall : ∀ c ∈ b :: w, isWord c = true := List.forall_mem_cons.2 ⟨hb, hrun.all⟩
  have hword : Word (b :: w) := ⟨List.cons_ne_nil b w, fun c hc => isWord_iff.1 (hall c hc)⟩
  have htail : ∀ c ∈ tail.head?, Bytes.isSpace c = true := fun c hc => by simpa [isWord] using hrun.stop c hc
  obtain ⟨hwhole, hcut⟩ := target?_append hword htail
  rw [List.cons_append] at hwhole hcut
  obtain ⟨k, hsearch, hk⟩ := search_target_cons hg hb (w ++ tail)
  rw [hsearch]
  by_cases hspaced : Spaced tail
  · obtain ⟨rest, hclosing⟩ := closing?_spaced hspaced
    rw [searchRun_whole hk hrun hclosing, hwhole hspaced]
    rfl
  · have hquote : tail.head? ≠ .some 34 := fun h => absurd (htail 34 h) (by decide)
    have hclosing := closing?_eq_none hspaced hquote
    rw [hcut hspaced]
    by_cases hmem : 34 ∈ w
    · obtain ⟨before, after, rfl, hafter⟩ := exists_last_quote hmem
      have hlast : upToLastQuote? ((b :: before) ++ 34 :: after) = _ := upToLastQuote?_append hafter
      rw [if_neg (List.cons_ne_nil _ _), List.cons_append] at hlast
      rw [searchRun_quoted hk rfl hrun hclosing hafter, hlast]
      rfl
    · rw [searchRun_open hk rfl hrun hclosing hmem, upToLastQuote?_cons hmem]
      rfl

/-- The first target that leaves an end of the request is the one that the scanner cuts off. -/
theorem search_target (hg : ∀ t, g [t] = .some (f t)) (bs : Bytes) :
    targetPattern.search bs (g ·.groups) = (target? bs).map f := by
  cases bs with
  | nil => rfl
  | cons b bs =>
    by_cases hb : isWord b = true
    · have hword := search_target_word hg hb (run_takeWhile isWord bs)
      rwa [List.takeWhile_append_dropWhile] at hword
    · have hnil : (b :: bs).takeWhile isWord = [] := List.takeWhile_cons_of_neg hb
      rw [target?, hnil]
      simp [targetPattern, plus, search, hb]

end Search

/-- **The scanner finds what a backtracking search for the pattern finds first.** -/
theorem search_requestPattern (line : Bytes) : requestPattern.search line (ofGroups? ·.groups) = request? line := by
  have htarget : ∀ method bs, targetPattern.search bs (fun n => ofGroups? (method :: n.groups)) =
      (target? bs).map (Request.mk method) :=
    fun method bs => search_target (g := fun groups => ofGroups? (method :: groups)) (fun _ => rfl) bs
  simp only [requestPattern, search_field (p := isWord) rfl, search_date, search_only, search_group (p := isUpper) rfl,
    htarget, Option.map_eq_bind]
  rfl

end RequestLog.AccessLog
