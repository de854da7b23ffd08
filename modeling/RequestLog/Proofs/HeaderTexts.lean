/-
A text for every header. A byte can be written as an octal escape of three
digits before any other escape, so all bytes have a text that stands for them
(`unescape_octalText`), and no such text holds a byte that would end it early.
So whatever headers requests have, they can be logged and are replayed
(`every_header_can_be_logged`). A request without one gets the empty text,
lest a sentinel in its target be taken for the end of a header.
-/
import RequestLog.Proofs.Readings
import RequestLog.Proofs.Written

namespace RequestLog

/-! ## Texts -/

namespace Escape

/-- The octal escape for a byte, with three digits. -/
def Token.ofByte (b : UInt8) : Token := .octal [48 + b / 64, 48 + b / 8 % 8, 48 + b % 8]

/-- A text that stands for some bytes. -/
def octalText (h : Bytes) : Bytes := h.flatMap fun b => (Token.ofByte b).spelling

theorem ofByte_meaning (b : UInt8) : (Token.ofByte b).meaning = [b] := by
  have hvalue : octalValue [48 + b / 64, 48 + b / 8 % 8, 48 + b % 8] = b.toNat := by
    have hb := b.toNat_lt
    simp only [octalValue, List.foldl_cons, List.foldl_nil, UInt8.toNat_add, UInt8.toNat_div, UInt8.toNat_mod,
      UInt8.reduceToNat]
    omega
  simp only [Token.ofByte, Token.meaning, hvalue, Nat.toUInt8_eq, UInt8.ofNat_toNat]

theorem ofByte_digits (b : UInt8) : ∀ d ∈ [48 + b / 64, 48 + b / 8 % 8, 48 + b % 8], 48 ≤ d ∧ d ≤ 55 := by
  have hb := b.toNat_lt
  simp only [List.forall_mem_cons, UInt8.le_iff_toNat_le, UInt8.toNat_add, UInt8.toNat_div, UInt8.toNat_mod,
    UInt8.reduceToNat]
  refine ⟨?_, ?_, ?_, nofun⟩ <;> omega

/-- The text of some bytes begins with a backslash, which ends any run of digits before it. -/
theorem head_octalText (h : Bytes) : ∀ d ∈ (octalText h).head?, ¬ (48 ≤ d ∧ d ≤ 55) := by
  cases h with
  | nil => nofun
  | cons b h =>
    intro d hd
    obtain rfl : 92 = d := Option.some.inj hd
    decide

theorem reading_octalText (h : Bytes) : Reading (h.map Token.ofByte) (octalText h) := by
  induction h with
  | nil => exact .nil
  | cons b h ih => exact .cons (.octal (List.cons_ne_nil _ _) (ofByte_digits b) (head_octalText h)) ih

theorem not_mem_octalText {d : UInt8} (hd : d < 48) (h : Bytes) : d ∉ octalText h := by
  intro hmem
  obtain ⟨b, _, hb⟩ := List.mem_flatMap.1 hmem
  rcases List.mem_cons.1 hb with rfl | hb
  · exact absurd hd (by decide)
  · exact UInt8.not_lt.2 (ofByte_digits b d hb).1 hd

/-- **All bytes have a text that stands for them,** and reading it gives no cause for a notice. -/
theorem unescape_octalText (h : Bytes) (source : Text) : unescape (octalText h) source = ⟨[], h⟩ := by
  have htokens : tokens (readable (octalText h)) = h.map Token.ofByte := by
    rw [readable_eq_self (not_mem_octalText (by decide) h), ← (reading_octalText h).eq_tokens]
  have hnotices : (h.map Token.ofByte).filterMap (Token.notice? source) = [] := by
    rw [List.filterMap_eq_nil_iff]
    rintro t ht
    obtain ⟨b, _, rfl⟩ := List.mem_map.1 ht
    rfl
  have hvalue : (h.map Token.ofByte).flatMap Token.meaning = h := by
    simp only [List.flatMap_map, ofByte_meaning, List.flatMap_singleton']
  simp only [unescape_eq, htokens, hnotices, hvalue]

end Escape

/-! ## Requests -/

namespace Record

/-- A request that a log can hold: its target is not empty and does not end early, and its header is
not an empty one. -/
structure Loggable (r : Record) : Prop where
  target_ne : r.target ≠ []
  target : terminator ∉ r.target
  header : r.header ≠ .some []

/-- The text for the header of a request; the empty one if there is no header. -/
def headerText (r : Record) : Bytes := Escape.octalText (r.header.getD [])

/-- A request as the record that is written for it. -/
def texted (r : Record) : Record := ⟨r.target, .some r.headerText⟩

variable {r : Record}

theorem Loggable.spellable (h : r.Loggable) : r.texted.Spellable := by
  refine ⟨h.target_ne, h.target, ?_⟩
  intro text htext
  cases htext
  exact ⟨Escape.not_mem_octalText (by decide) _, Escape.not_mem_octalText (by decide) _⟩

theorem Loggable.compose (h : r.Loggable) :
    compose (.bytes r.target) (.some (.bytes r.headerText)) = .ok r.texted :=
  compose_eq_ok_iff.2 ⟨rfl, rfl, h.spellable⟩

theorem Loggable.decoded_texted (h : r.Loggable) : r.texted.decoded = r := by
  obtain ⟨target, header⟩ := r
  simp only [decoded, texted, headerText, Option.bind_some, Escape.unescape_octalText]
  cases header with
  | none => rfl
  | some bs =>
    have hne : bs ≠ [] := fun hnil => h.header (congrArg Option.some hnil)
    simp only [Option.getD_some, if_neg hne]

end Record

namespace Writer

open Record

/-- **Every header can be logged.** All bytes have a text that stands for them, and that can be the
header text of a record. So for requests with any headers there are texts with which they can be
written, each one for itself and all to one log, and the log is replayed as those requests. -/
theorem every_header_can_be_logged :
    (∀ h : Bytes, ∃ text : Bytes, terminator ∉ text ∧ sentinel ∉ text ∧
      ∀ source, Escape.unescape text source = ⟨[], h⟩) ∧
    ∀ rs : List Record, rs ≠ [] → (∀ r ∈ rs, r.Loggable) →
      ∃ texts : List Bytes, texts.length = rs.length ∧
        (∀ p ∈ rs.zip texts, ∃ bs, encode (.bytes p.1.target) (.some (.bytes p.2)) = .ok bs) ∧
        ∀ (t : Tree) (path : Text) (token : Bytes), Writable t path token →
          let out := write t path token
            (pairs (rs.map fun r => .bytes r.target) (.some (texts.map fun text => .some (.bytes text))))
          out.2 = .ok rs.length ∧
          ∀ (g : Generator) (c : Generator.Change), g.Fresh → (g.apply c).path = .some path →
            (g.apply c).embedded = true → g.Replays out.1 c rs := by
  refine ⟨?_, ?_⟩
  · intro h
    exact ⟨Escape.octalText h, Escape.not_mem_octalText (by decide) h, Escape.not_mem_octalText (by decide) h,
      Escape.unescape_octalText h⟩
  · intro rs hne hrs
    refine ⟨rs.map headerText, List.length_map _, ?_, ?_⟩
    · intro p hp
      rw [← List.map_id rs, List.map_map, List.zip_map'] at hp
      obtain ⟨r, hr, rfl⟩ := List.mem_map.1 hp
      exact exists_encode_iff.2 ⟨r.texted, (hrs r hr).compose⟩
    · intro t path token hw out
      have hpairs : pairs (rs.map fun r => .bytes r.target)
          (.some ((rs.map headerText).map fun text => .some (.bytes text))) =
          rs.map fun r => (.bytes r.target, .some (.bytes r.headerText)) := by
        rw [List.map_map]
        exact List.zip_map' ..
      have hcomposed : (rs.map fun r => (Datum.bytes r.target, Option.some (Datum.bytes r.headerText))).map
          (fun p => compose p.1 p.2) = (rs.map texted).map .ok := by
        rw [List.map_map, List.map_map]
        exact List.map_congr_left fun r hr => (hrs r hr).compose
      obtain ⟨t', hwrite, hreplaced⟩ := write_replaces hw (encodeAll_composed hcomposed)
      have hout : out = (t', .ok (rs.map texted).length) := by rw [← hwrite, ← hpairs]
      have hspellable : ∀ q ∈ rs.map texted, q.Spellable := by
        rw [List.forall_mem_map]
        exact fun r hr => (hrs r hr).spellable
      have hdecoded : (rs.map texted).map decoded = rs := by
        rw [List.map_map]
        exact (List.map_congr_left fun r hr => (hrs r hr).decoded_texted).trans (List.map_id rs)
      rw [hout, List.length_map]
      refine ⟨rfl, ?_⟩
      intro g c hg hpath hembedded
      have hread : ∀ q ∈ rs.map texted, split (g.apply c).embedded q.body = q := by
        rw [hembedded, List.forall_mem_map]
        exact fun r hr => (hrs r hr).spellable.split_body
      exact hdecoded ▸ hg.replays hpath hreplaced.found (by simpa using hne) hspellable hread

/-- A target with a sentinel and no header, and a header with a NUL before a digit, a sentinel and a
backslash. -/
theorem every_header_can_be_logged_two :
    let rs : List Record := [⟨[47, 1, 120], .none⟩, ⟨[47, 121], .some [0, 49, 1, 92]⟩]
    let g : Generator := { path := .some "log", embedded := true }
    (∀ r ∈ rs, r.Loggable) ∧ Writable ⟨[], []⟩ "log" [49] ∧
      ∃ (texts : List Bytes) (t' : Tree),
        write ⟨[], []⟩ "log" [49] (pairs (rs.map fun r => .bytes r.target)
          (.some (texts.map fun text => .some (.bytes text)))) = (t', .ok 2) ∧ g.Replays t' {} rs := by
  intro rs g
  have hrs : ∀ r ∈ rs, r.Loggable := by
    simp only [rs, List.forall_mem_cons]
    exact ⟨⟨by decide, by decide, by decide⟩, ⟨by decide, by decide, by decide⟩, nofun⟩
  obtain ⟨_, hlogged⟩ := every_header_can_be_logged
  obtain ⟨texts, _, _, hwrite⟩ := hlogged rs (List.cons_ne_nil _ _) hrs
  obtain ⟨hcount, hreplays⟩ := hwrite ⟨[], []⟩ "log" [49] writable_log
  exact ⟨hrs, writable_log, texts, _, Prod.ext rfl hcount, hreplays g {} ⟨rfl, rfl⟩ rfl rfl⟩

end Writer

end RequestLog
