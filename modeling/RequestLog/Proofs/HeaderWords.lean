/-
Headers among the words of a replay. A header can be attached to the name of
its option in one word. Such words, ahead of all others, put their headers
before the others of the replay and change nothing else (`ofWords_headerWords`).
-/
import RequestLog.Proofs.Words

namespace RequestLog

/-- Options with headers ahead of their own. -/
def Config.Override.headed (headers : List (Option Text)) (o : Override) : Override :=
  { o with addHeader := headers ++ o.addHeader }

namespace CommandLine

open Config (Override)

/-! ## The words of pieces -/

namespace Grammar

variable {α : Type} {g : Grammar α}

theorem word_of_pieceByCandidates {word : Text} {p : Piece α} (h : g.pieceByCandidates word = .ok p) :
    p.word = word := by
  unfold pieceByCandidates at h
  split at h
  · cases h
    split <;> rfl
  · cases h
    rfl
  · cases h

theorem word_of_piece {word : Text} {p : Piece α} (h : g.piece word = .ok p) : p.word = word := by
  unfold piece at h
  split at h
  · cases h
    rfl
  split at h
  · cases h
    rfl
  split at h
  · split at h
    · cases h
      rfl
    · exact word_of_pieceByCandidates h
  · exact word_of_pieceByCandidates h

/-- Pieces keep the words that they are read from. -/
theorem words_of_pieces {words : List Text} {ps : List (Piece α)} (h : g.pieces words = .ok ps) :
    ps.map Piece.word = words := by
  induction words generalizing ps with
  | nil =>
    cases h
    rfl
  | cons w ws ih =>
    unfold pieces at h
    split at h
    · rename_i hw
      cases h
      rw [eq_of_beq hw, List.map_cons, List.map_map]
      exact congrArg (divider :: ·) (List.map_id ws)
    · obtain ⟨p, hp, h⟩ := bind_eq_ok_iff.1 h
      obtain ⟨ps, hps, h⟩ := bind_eq_ok_iff.1 h
      cases h
      rw [List.map_cons, word_of_piece hp, ih hps]

end Grammar

/-! ## Words with headers -/

/-- The word of an option with a header. -/
def headerWord (header : Text) : Text := "--add-header=" ++ header

theorem read_headerWord (header : Text) (words : List Text) (o : Override) :
    replayGrammar.read (headerWord header :: words) o =
      replayGrammar.read words { o with addHeader := o.addHeader ++ [argumentValue header] } :=
  Grammar.read_flag (s := ⟨["--add-header"], .text fun t o => { o with addHeader := o.addHeader ++ [t] }⟩)
    rfl rfl rfl rfl rfl words

theorem read_headerWords (headers words : List Text) (o : Override) :
    replayGrammar.read (headers.map headerWord ++ words) o =
      replayGrammar.read words { o with addHeader := o.addHeader ++ headers.map argumentValue } := by
  induction headers generalizing o with
  | nil => rw [List.map_nil, List.map_nil, List.append_nil, List.nil_append]
  | cons header headers ih =>
    rw [List.map_cons, List.cons_append, read_headerWord, ih, List.map_cons, List.append_assoc,
      List.singleton_append]

theorem headed_commutes (headers : List (Option Text)) : replayGrammar.Commutes (Override.headed headers) := by
  refine ⟨?_, nofun⟩
  intro s hs program argument o
  simp only [Grammar.all, replayGrammar, List.mem_cons, List.not_mem_nil, or_false] at hs
  rcases hs with rfl | rfl | rfl | rfl | rfl | rfl
  · rfl
  · cases argument <;> rfl
  · cases argument <;> rfl
  · rfl
  · cases argument with
    | none => rfl
    | some t => exact congrArg (fun hs => Except.ok { o with addHeader := hs }) (List.append_assoc ..)
  · cases argument with
    | none => rfl
    | some t =>
      simp only [Switch.apply, Effect.integer]
      cases argumentValue t with
      | none => rfl
      | some t =>
        simp only
        cases t.toInt? <;> rfl

/-- The program looks at such words and leaves them to the command. -/
theorem pieces_headerWords (headers words : List Text) :
    ∃ qs, grammar.pieces (headers.map headerWord ++ words) = (grammar.pieces words).map (qs ++ ·) := by
  induction headers with
  | nil =>
    refine ⟨[], ?_⟩
    simp only [List.map_nil, List.nil_append]
    cases grammar.pieces words <;> rfl
  | cons header headers ih =>
    obtain ⟨qs, hqs⟩ := ih
    have hpiece : ∃ q, grammar.piece (headerWord header) = .ok q := ⟨_, rfl⟩
    obtain ⟨q, hq⟩ := hpiece
    refine ⟨q :: qs, ?_⟩
    rw [List.map_cons, List.cons_append, Grammar.pieces, if_neg (show ¬ (headerWord header == divider) = true from
      Bool.false_ne_true), hq, hqs]
    cases grammar.pieces words <;> rfl

def replayWord : Text := "replay"

theorem read_replayWord (words : List Text) :
    grammar.read (replayWord :: words) {} =
      ((grammar.pieces words).mapError (.rejected program)).bind fun _ =>
        (replayGrammar.read words {}).map fun r => ({ command := .some (.replay r.1) }, r.2) := by
  cases hps : grammar.pieces words with
  | error r =>
    unfold Grammar.read
    rw [Grammar.pieces, if_neg (show ¬ (replayWord == divider) = true from Bool.false_ne_true), hps]
    rfl
  | ok ps =>
    have hread : grammar.read (replayWord :: words) {} = Draft.takeCommand replayWord words {} :=
      Grammar.read_rest rfl rfl rfl hps (Grammar.words_of_pieces hps) {}
    rw [hread]
    change (Command.ofWords replayGrammar {} .replay words >>= fun r =>
      Except.ok (({ command := .some r.1 } : Draft), r.2)) = _
    unfold Command.ofWords
    cases replayGrammar.read words {} <;> rfl

/-- **Words with headers, ahead of the others of a replay,** put their headers before those of the
others. -/
theorem ofWords_headerWords (headers words : List Text) :
    Invocation.ofWords (replayWord :: (headers.map headerWord ++ words)) =
      (Invocation.ofWords (replayWord :: words)).map fun v =>
        match v.command with
        | .replay o => { v with command := .replay (o.headed (headers.map argumentValue)) }
        | _ => v := by
  obtain ⟨qs, hqs⟩ := pieces_headerWords headers words
  have hheaded : replayGrammar.read (headers.map headerWord ++ words) {} =
      (replayGrammar.read words {}).map fun r => (r.1.headed (headers.map argumentValue), r.2) := by
    have hempty : Override.headed (headers.map argumentValue) {} =
        { addHeader := [] ++ headers.map argumentValue } := by
      rw [Override.headed, List.append_nil, List.nil_append]
    rw [read_headerWords, ← Grammar.read_change (headed_commutes _), hempty]
  rw [Invocation.ofWords_eq, Invocation.ofWords_eq, read_replayWord, read_replayWord, hqs, hheaded]
  cases grammar.pieces words with
  | error r => rfl
  | ok ps =>
    rcases replayGrammar.read words {} with stop | ⟨o, left⟩
    · rfl
    · cases left <;> rfl

end CommandLine

end RequestLog
