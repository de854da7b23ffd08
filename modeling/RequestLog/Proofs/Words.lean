/-
Reading the words of a command line. A change that commutes with all that a
grammar does to a value can be made before the reading or after it
(`Grammar.read_change`). A flag ahead of all other words is such a change, so
that it makes the invocation that there is without it quieter or louder and
changes nothing else of it (`ofWords_quiet`, `ofWords_verbose`).
-/
import RequestLog.CommandLine.Invocation
import RequestLog.Proofs.Headerless

namespace RequestLog.CommandLine

variable {α : Type} {g : Grammar α} {f : α → α}

/-! ## Changes that a grammar commutes with -/

def Switch.Commutes (s : Switch α) (f : α → α) : Prop :=
  ∀ program argument a, s.apply program argument (f a) = (s.apply program argument a).map f

def Operand.Commutes (f : α → α) : Operand α → Prop
  | .word _ take => ∀ value a, take value (f a) = f (take value a)
  | .rest _ take => ∀ word words a, take word words (f a) = (take word words a).map fun r => (f r.1, r.2)

namespace Grammar

/-- All switches of a grammar. -/
def all (g : Grammar α) : List (Switch α) := helpSwitch :: g.switches

/-- A change that commutes with every switch and every operand. -/
structure Commutes (g : Grammar α) (f : α → α) : Prop where
  switch : ∀ s ∈ g.all, s.Commutes f
  operand : ∀ o ∈ g.operands, o.Commutes f

/-! ## Switches that words stand for -/

theorem mem_all_of_named {e : Text × Switch α} (h : e ∈ g.named) : e.2 ∈ g.all := by
  obtain ⟨s, hs, he⟩ := List.mem_flatMap.1 h
  obtain ⟨_, _, rfl⟩ := List.mem_map.1 he
  exact hs

theorem mem_all_of_find? {name : Text} {s : Switch α} (h : g.find? name = .some s) : s ∈ g.all := by
  obtain ⟨e, he, rfl⟩ := Option.map_eq_some_iff.1 h
  exact mem_all_of_named (List.mem_of_find?_eq_some he)

theorem mem_all_of_candidates {word n : Text} {s : Switch α} {attached : Option Text}
    (h : (n, s, attached) ∈ g.candidates word) : s ∈ g.all := by
  unfold candidates at h
  split at h
  · split at h
    · rename_i hfind
      simp only [List.mem_singleton, Prod.mk.injEq] at h
      obtain ⟨_, rfl, _⟩ := h
      exact mem_all_of_find? hfind
    · cases h
  · obtain ⟨e, he, heq⟩ := List.mem_map.1 h
    cases heq
    exact mem_all_of_named (List.mem_filter.1 he).1

theorem mem_all_of_pieceByCandidates {word w : Text} {s : Switch α} {short : Bool} {attached : Option Text}
    (h : g.pieceByCandidates word = .ok (.switch w s short attached)) : s ∈ g.all := by
  unfold pieceByCandidates at h
  split at h
  · split at h <;> cases h
  · rename_i n s' attached' hcandidates
    cases h
    exact mem_all_of_candidates (by rw [hcandidates]; exact List.mem_singleton_self _)
  · cases h

theorem mem_all_of_piece {word w : Text} {s : Switch α} {short : Bool} {attached : Option Text}
    (h : g.piece word = .ok (.switch w s short attached)) : s ∈ g.all := by
  unfold piece at h
  split at h
  · cases h
  · split at h
    · rename_i hfind
      cases h
      exact mem_all_of_find? hfind
    · split at h
      · split at h
        · rename_i hfind
          cases h
          exact mem_all_of_find? hfind
        · exact mem_all_of_pieceByCandidates h
      · exact mem_all_of_pieceByCandidates h

theorem mem_all_of_pieces {words : List Text} {ps : List (Piece α)} (h : g.pieces words = .ok ps) {w : Text}
    {s : Switch α} {short : Bool} {attached : Option Text} (hs : .switch w s short attached ∈ ps) : s ∈ g.all := by
  induction words generalizing ps with
  | nil => cases h; cases hs
  | cons word words ih =>
    unfold pieces at h
    split at h
    · cases h
      simp at hs
    · obtain ⟨p, hp, h⟩ := bind_eq_ok_iff.1 h
      obtain ⟨ps', hps, h⟩ := bind_eq_ok_iff.1 h
      cases h
      rcases List.mem_cons.1 hs with rfl | hs
      · exact mem_all_of_piece hp
      · exact ih hps hs

end Grammar

namespace Cluster

/-- All switches of a cluster are those of a grammar. -/
def Among (g : Grammar α) (k : Cluster α) : Prop := (∀ s ∈ k.before, s ∈ g.all) ∧ k.last ∈ g.all

theorem among_ofShort {s : Switch α} {attached : Text} {k : Cluster α} (hs : s ∈ g.all)
    (h : ofShort g s attached = .ok k) : k.Among g := by
  induction attached generalizing s k with
  | nil =>
    unfold ofShort at h
    split at h
    · cases h
      exact ⟨nofun, hs⟩
    · cases h
  | cons c t ih =>
    unfold ofShort at h
    split at h
    · cases h
      exact ⟨nofun, hs⟩
    · simp only at h
      split at h
      · cases h
      · rename_i hfind
        cases h
        exact ⟨by simpa using hs, Grammar.mem_all_of_find? hfind⟩
      · rename_i hfind
        obtain ⟨k, hk, rfl⟩ := map_eq_ok_iff.1 h
        obtain ⟨hbefore, hlast⟩ := ih (Grammar.mem_all_of_find? hfind) hk
        exact ⟨List.forall_mem_cons.2 ⟨hs, hbefore⟩, hlast⟩

theorem among_ofSwitch {s : Switch α} {short : Bool} {attached : Option Text} {k : Cluster α} (hs : s ∈ g.all)
    (h : ofSwitch g s short attached = .ok k) : k.Among g := by
  unfold ofSwitch at h
  split at h
  · cases h
    exact ⟨nofun, hs⟩
  · split at h
    · exact among_ofShort hs h
    · split at h
      · cases h
        exact ⟨nofun, hs⟩
      · cases h

theorem apply_change (hg : g.Commutes f) {k : Cluster α} (hk : k.Among g) (program : Text) (argument : Option Text)
    (a : α) : k.apply program argument (f a) = (k.apply program argument a).map f := by
  obtain ⟨before, last, _⟩ := k
  obtain ⟨hbefore, hlast⟩ := hk
  change last ∈ g.all at hlast
  unfold apply
  induction before generalizing a with
  | nil => exact hg.switch _ hlast program argument a
  | cons s before ih =>
    obtain ⟨hs, hbefore⟩ := List.forall_mem_cons.1 hbefore
    simp only [List.foldlM_cons, hg.switch s hs program .none a]
    cases s.apply program .none a with
    | error stop => rfl
    | ok b => exact ih b hbefore

end Cluster

/-! ## Readings -/

theorem subset_of_cutOperand? {ps rest : List (Piece α)} {ws : List Text} (h : cutOperand? ps = .some (ws, rest)) :
    rest ⊆ ps := by
  fun_induction cutOperand? ps generalizing ws rest with
  | case1 ps ih =>
    obtain ⟨⟨ws', rest'⟩, hcut, heq⟩ := Option.map_eq_some_iff.1 h
    cases heq
    exact List.subset_cons_of_subset _ (ih hcut)
  | case2 w ps =>
    cases h
    exact List.subset_cons_of_subset _ (List.subset_cons_self _ _)
  | case3 w ps =>
    cases h
    exact List.subset_cons_self _ _
  | case4 => cases h

namespace Grammar

theorem readPieces_nil (operands : List (Operand α)) (a : α) : g.readPieces operands a [] = g.finish operands a := by
  rw [readPieces.eq_def]

theorem readPieces_unknown (operands : List (Operand α)) (a : α) (w : Text) (ps : List (Piece α)) :
    g.readPieces operands a (.unknown w :: ps) = (g.readPieces operands a ps).map (withLeft w) := by
  rw [readPieces.eq_def]

theorem readPieces_switch {s : Switch α} {short : Bool} {attached : Option Text} {k : Cluster α}
    (hk : Cluster.ofSwitch g s short attached = .ok k) (operands : List (Operand α)) (a : α) (w : Text)
    (ps : List (Piece α)) (hword : k.needsWord = false) :
    g.readPieces operands a (.switch w s short attached :: ps) =
      k.apply g.program k.argument a >>= fun a => g.readPieces operands a ps := by
  rw [readPieces.eq_def]
  simp only [hk, hword, Bool.false_eq_true, if_false]

theorem readPieces_argument {s : Switch α} {short : Bool} {attached : Option Text} {k : Cluster α}
    (hk : Cluster.ofSwitch g s short attached = .ok k) (operands : List (Operand α)) (a : α) (w w' : Text)
    (ps : List (Piece α)) (hword : k.needsWord = true) :
    g.readPieces operands a (.switch w s short attached :: .operand w' :: ps) =
      k.apply g.program (.some w') a >>= fun a => g.readPieces operands a ps := by
  rw [readPieces.eq_def]
  simp only [hk, hword, if_true]

/-- Pieces that do not begin with a switch, nor with a word that nothing takes. -/
theorem readPieces_plain {p : Piece α} (hunknown : ∀ w, p ≠ .unknown w)
    (hswitch : ∀ w s short attached, p ≠ .switch w s short attached) (operands : List (Operand α)) (a : α)
    (ps : List (Piece α)) :
    g.readPieces operands a (p :: ps) =
      match cutOperand? (p :: ps), operands with
      | .some (ws, rest), .word _ take :: operands => g.readPieces operands (take (operandValue ws) a) rest
      | .some _, .rest _ take :: operands =>
        take p.word (ps.map Piece.word) a >>= fun r => (g.finish operands r.1).map fun r' => (r'.1, r.2)
      | _, _ => (g.readPieces operands a ps).map (withLeft p.word) := by
  rw [readPieces.eq_def]
  cases p with
  | unknown w => exact absurd rfl (hunknown w)
  | switch w s short attached => exact absurd rfl (hswitch w s short attached)
  | _ =>
    simp only
    generalize cutOperand? (_ :: ps) = cut
    rcases cut with _ | ⟨ws, rest⟩
    · rfl
    · rcases operands with _ | ⟨_ | _, operands⟩ <;> rfl

/-! ## Changes before and after a reading -/

/-- Pieces that are switches of a grammar, or no switches. -/
def Among (g : Grammar α) (ps : List (Piece α)) : Prop :=
  ∀ w s short attached, .switch w s short attached ∈ ps → s ∈ g.all

theorem Among.tail {p : Piece α} {ps : List (Piece α)} (h : g.Among (p :: ps)) : g.Among ps :=
  fun w s short attached hs => h w s short attached (List.mem_cons_of_mem p hs)

theorem finish_change (operands : List (Operand α)) (a : α) :
    g.finish operands (f a) = (g.finish operands a).map fun r => (f r.1, r.2) := by
  unfold finish
  split <;> rfl

theorem map_withLeft (w : Text) (x : Except Stop (α × List Text)) :
    (x.map fun r => (f r.1, r.2)).map (withLeft w) = (x.map (withLeft w)).map fun r => (f r.1, r.2) := by
  cases x <;> rfl

/-- Reading on from a changed value. -/
theorem readPieces_change (hg : g.Commutes f) {operands : List (Operand α)} {ps : List (Piece α)}
    (hops : ∀ o ∈ operands, o.Commutes f) (hps : g.Among ps) (a : α) :
    g.readPieces operands (f a) ps = (g.readPieces operands a ps).map fun r => (f r.1, r.2) := by
  fun_induction g.readPieces operands a ps with
  | case1 operands a =>
    rw [readPieces_nil]
    exact finish_change operands a
  | case2 operands a w ps ih =>
    rw [readPieces_unknown, ih hops hps.tail]
    exact map_withLeft w _
  | case3 operands a w s short attached ps r hcluster =>
    rw [readPieces.eq_def]
    simp only [hcluster]
    rfl
  | case4 operands a w s short attached k hcluster hword w' ps ih =>
    have hk := Cluster.among_ofSwitch (hps w s short attached List.mem_cons_self) hcluster
    rw [readPieces_argument hcluster _ _ _ _ _ hword, Cluster.apply_change hg hk]
    cases k.apply g.program (.some w') a with
    | error stop => rfl
    | ok b => exact ih b hops hps.tail.tail
  | case5 operands a w s short attached ps k hcluster hword hno =>
    rw [readPieces.eq_def]
    simp only [hcluster, hword, if_true]
    rfl
  | case6 operands a w s short attached ps k hcluster hword ih =>
    have hk := Cluster.among_ofSwitch (hps w s short attached List.mem_cons_self) hcluster
    rw [readPieces_switch hcluster _ _ _ _ (Bool.not_eq_true _ ▸ hword), Cluster.apply_change hg hk]
    cases k.apply g.program k.argument a with
    | error stop => rfl
    | ok b => exact ih b hops hps.tail
  | case7 a p ps hunknown hswitch ws rest name take operands hcut _ ih =>
    obtain ⟨htake, hops⟩ := List.forall_mem_cons.1 hops
    have hrest : g.Among rest := fun w s short attached hs => hps w s short attached (subset_of_cutOperand? hcut hs)
    rw [readPieces_plain hunknown hswitch, hcut]
    simp only [htake (operandValue ws) a]
    exact ih hops hrest
  | case8 a p ps hunknown hswitch r name take operands hcut =>
    have htake := hops _ List.mem_cons_self
    rw [readPieces_plain hunknown hswitch, hcut]
    simp only [htake p.word (ps.map Piece.word) a]
    cases take p.word (ps.map Piece.word) a with
    | error stop => rfl
    | ok r => simp only [Except.map, bind, Except.bind, finish_change]; cases g.finish operands r.1 <;> rfl
  | case9 operands a p ps hunknown hswitch hword hrest ih =>
    rw [readPieces_plain hunknown hswitch]
    split
    · rename_i hcut
      exact absurd rfl (hword _ _ _ _ _ hcut)
    · rename_i hcut
      exact absurd rfl (hrest _ _ _ _ hcut)
    · rw [ih hops hps.tail]
      exact map_withLeft p.word _

/-- **A change that commutes with all that a grammar does can be made before a reading or after it.** -/
theorem read_change (hg : g.Commutes f) (words : List Text) (a : α) :
    g.read words (f a) = (g.read words a).map fun r => (f r.1, r.2) := by
  unfold read
  cases hps : g.pieces words with
  | error r => rfl
  | ok ps => exact readPieces_change hg hg.operand (fun w s short attached hs => mem_all_of_pieces hps hs) a

/-- A switch that takes no word of its own, ahead of other words. -/
theorem read_flag {w : Text} {s : Switch α} {short : Bool} {attached : Option Text} {k : Cluster α} {a b : α}
    (hw : (w == divider) = false) (hpiece : g.piece w = .ok (.switch w s short attached))
    (hk : Cluster.ofSwitch g s short attached = .ok k) (hword : k.needsWord = false)
    (happly : k.apply g.program k.argument a = .ok b) (words : List Text) : g.read (w :: words) a = g.read words b := by
  unfold read
  rw [pieces, hw, if_neg Bool.false_ne_true, hpiece]
  cases g.pieces words with
  | error r => rfl
  | ok ps =>
    change g.readPieces g.operands a (.switch w s short attached :: ps) = g.readPieces g.operands b ps
    rw [readPieces_switch hk _ _ _ _ hword, happly]
    rfl

/-- A word that is no switch, ahead of other words, where an operand takes all words from its own on. -/
theorem read_rest {name : Text} {take : Text → List Text → α → Except Stop (α × List Text)} {w : Text}
    {words : List Text} {ps : List (Piece α)} (hops : g.operands = [.rest name take]) (hw : (w == divider) = false)
    (hpiece : g.piece w = .ok (.operand w)) (hps : g.pieces words = .ok ps) (hwords : ps.map Piece.word = words)
    (a : α) : g.read (w :: words) a = take w words a := by
  obtain ⟨⟨ws, rest⟩, hcut⟩ : ∃ cut, cutOperand? (Piece.operand w :: ps) = .some cut := by
    unfold cutOperand?
    split <;> simp_all
  unfold read
  rw [pieces, hw, if_neg Bool.false_ne_true, hpiece, hps, hops]
  change g.readPieces [.rest name take] a (.operand w :: ps) = _
  rw [readPieces_plain (fun _ h => by cases h) (fun _ _ _ _ h => by cases h), hcut, hwords]
  change (take w words a >>= fun r => Except.ok r) = _
  cases take w words a <;> rfl

/-- A switch that takes the next word, ahead of other words. -/
theorem read_argument {w w' : Text} {s : Switch α} {short : Bool} {attached : Option Text} {k : Cluster α} {a b : α}
    (hw : (w == divider) = false) (hw' : (w' == divider) = false)
    (hpiece : g.piece w = .ok (.switch w s short attached)) (hpiece' : g.piece w' = .ok (.operand w'))
    (hk : Cluster.ofSwitch g s short attached = .ok k)
    (hword : k.needsWord = true) (happly : k.apply g.program (.some w') a = .ok b) (words : List Text) :
    g.read (w :: w' :: words) a = g.read words b := by
  unfold read
  rw [pieces, hw, if_neg Bool.false_ne_true, hpiece, pieces, hw', if_neg Bool.false_ne_true, hpiece']
  cases g.pieces words with
  | error r => rfl
  | ok ps =>
    change g.readPieces g.operands a (.switch w s short attached :: .operand w' :: ps) = g.readPieces g.operands b ps
    rw [readPieces_argument hk _ _ _ _ _ hword, happly]
    rfl

end Grammar

/-! ## Flags ahead of other words -/

/-- The flag for a verbosity of one more than a number. -/
def verboseFlag (n : Nat) : Text := dash :: List.replicate (n + 1) 118

def quietFlag : Text := "--quiet"

namespace Draft

def louder (n : Nat) (d : Draft) : Draft := { d with verbose := d.verbose + n }

def hushed (d : Draft) : Draft := { d with quiet := true }

theorem takeCommand_change {f : Draft → Draft} (hf : ∀ d c, f { d with command := c } = { f d with command := c })
    (word : Text) (words : List Text) (d : Draft) :
    takeCommand word words (f d) = (takeCommand word words d).map fun r => (f r.1, r.2) := by
  unfold takeCommand
  cases choose commands word with
  | error o => rfl
  | ok read =>
    change (read words >>= _) = (read words >>= _).map _
    cases read words with
    | error stop => rfl
    | ok r => exact congrArg (fun d => Except.ok (d, r.2)) (hf d _).symm

end Draft

/-- A change of the flags is one that the program's grammar commutes with. -/
theorem grammar_commutes {f : Draft → Draft} (hcommand : ∀ d c, f { d with command := c } = { f d with command := c })
    (hverbose : ∀ d, f { d with verbose := d.verbose + 1 } = { f d with verbose := (f d).verbose + 1 })
    (hquiet : ∀ d, f { d with quiet := true } = { f d with quiet := true }) : grammar.Commutes f := by
  refine ⟨?_, ?_⟩
  · intro s hs program argument d
    simp only [Grammar.all, grammar, List.mem_cons, List.not_mem_nil, or_false] at hs
    rcases hs with rfl | rfl | rfl
    · rfl
    · exact congrArg Except.ok (hverbose d).symm
    · exact congrArg Except.ok (hquiet d).symm
  · intro o ho
    obtain rfl := List.mem_singleton.1 ho
    exact Draft.takeCommand_change hcommand

theorem louder_commutes (n : Nat) : grammar.Commutes (Draft.louder n) :=
  grammar_commutes (fun _ _ => rfl) (fun d => by simp only [Draft.louder, Nat.add_right_comm]) fun _ => rfl

theorem hushed_commutes : grammar.Commutes Draft.hushed := grammar_commutes (fun _ _ => rfl) (fun _ => rfl) fun _ => rfl

theorem read_quiet (words : List Text) (d : Draft) :
    grammar.read (quietFlag :: words) d = grammar.read words d.hushed :=
  have hpiece : grammar.piece quietFlag = .ok (.switch quietFlag ⟨["--quiet"], .mark Draft.hushed⟩ false .none) := rfl
  Grammar.read_flag rfl hpiece rfl rfl rfl words

def verboseSwitch : Switch Draft := ⟨["--verbose", "-v"], .mark (Draft.louder 1)⟩

theorem ofShort_verbose (n : Nat) :
    Cluster.ofShort grammar verboseSwitch (List.replicate (n + 1) 118) =
      .ok ⟨List.replicate (n + 1) verboseSwitch, verboseSwitch, .none⟩ := by
  induction n with
  | zero => rfl
  | succ n ih =>
    change (Cluster.ofShort grammar verboseSwitch (List.replicate (n + 1) 118)).map
      (fun k => { k with before := verboseSwitch :: k.before }) = _
    rw [ih]
    rfl

/-- The first of the letters of the flag is its name, and the others are attached. -/
theorem piece_verboseFlag (n : Nat) :
    ∃ attached, grammar.piece (verboseFlag n) = .ok (.switch (verboseFlag n) verboseSwitch true attached) ∧
      Cluster.ofSwitch grammar verboseSwitch true attached =
        .ok ⟨List.replicate n verboseSwitch, verboseSwitch, .none⟩ := by
  cases n with
  | zero => exact ⟨.none, rfl, rfl⟩
  | succ n =>
    refine ⟨.some (List.replicate (n + 1) 118), ?_, ofShort_verbose n⟩
    have hcut : (verboseFlag (n + 1)).cutAt equals = (verboseFlag (n + 1), .none) :=
      List.cutAt_of_not_mem (by simp [verboseFlag, equals, dash])
    have hnone : grammar.find? (verboseFlag (n + 1)) = .none := rfl
    unfold Grammar.piece
    rw [hcut, hnone]
    rfl

theorem read_verbose (n : Nat) (words : List Text) (d : Draft) :
    grammar.read (verboseFlag n :: words) d = grammar.read words (d.louder (n + 1)) := by
  obtain ⟨attached, hpiece, hcluster⟩ := piece_verboseFlag n
  have hw : (verboseFlag n == divider) = false := by cases n <;> rfl
  have happly : ∀ (n : Nat) (d : Draft), Cluster.apply ⟨List.replicate n verboseSwitch, verboseSwitch, .none⟩
      program .none d = .ok (d.louder (n + 1)) := by
    intro n
    induction n with
    | zero => exact fun _ => rfl
    | succ n ih =>
      intro d
      refine (ih (d.louder 1)).trans (congrArg Except.ok ?_)
      simp only [Draft.louder, Nat.add_assoc, Nat.add_comm 1]
  exact Grammar.read_flag hw hpiece hcluster rfl (happly n d) words

namespace Invocation

/-- What a reading of all words comes to. -/
def ofRead (r : Draft × List Text) : Except Stop Invocation := do
  if !r.2.isEmpty then .error (.rejected program (.unknown r.2))
  match r.1.command with
  | .none => .error (.rejected program (.missing [commandName]))
  | .some (.replay o) => return ⟨r.1.verbose, r.1.quiet, .replay { o with verbose := r.1.verbose }⟩
  | .some c => return ⟨r.1.verbose, r.1.quiet, c⟩

theorem ofWords_eq (words : List Text) : ofWords words = grammar.read words {} >>= ofRead := rfl

end Invocation

/-- A command with a higher verbosity. -/
def Command.louder (n : Nat) : Command → Command
  | .replay o => .replay { o with verbose := o.verbose + n }
  | c => c

namespace Invocation

def louder (n : Nat) (v : Invocation) : Invocation :=
  { v with verbose := v.verbose + n, command := v.command.louder n }

def hushed (v : Invocation) : Invocation := { v with quiet := true }

/-- **A flag for silence ahead of other words** makes the invocation of those a quiet one. -/
theorem ofWords_quiet (words : List Text) : ofWords (quietFlag :: words) = (ofWords words).map hushed := by
  rw [ofWords_eq, ofWords_eq, read_quiet, Grammar.read_change hushed_commutes]
  rcases grammar.read words {} with stop | ⟨d, left⟩
  · rfl
  · change ofRead (d.hushed, left) = (ofRead (d, left)).map hushed
    unfold ofRead
    cases left with
    | cons w ws => rfl
    | nil => rcases hcommand : d.command with _ | o | b | i <;> simp only [Draft.hushed, hcommand] <;> rfl

/-- **A flag for verbosity ahead of other words** raises that of the invocation of those. -/
theorem ofWords_verbose (n : Nat) (words : List Text) :
    ofWords (verboseFlag n :: words) = (ofWords words).map (louder (n + 1)) := by
  rw [ofWords_eq, ofWords_eq, read_verbose, Grammar.read_change (louder_commutes (n + 1))]
  rcases grammar.read words {} with stop | ⟨d, left⟩
  · rfl
  · change ofRead (d.louder (n + 1), left) = (ofRead (d, left)).map (louder (n + 1))
    unfold ofRead
    cases left with
    | cons w ws => rfl
    | nil => rcases hcommand : d.command with _ | o | b | i <;> simp only [Draft.louder, hcommand] <;> rfl

end Invocation

/-! ## The words of a replay -/

/-- The words for a replay of a log, once and without a configuration of its own. -/
def replayWords (path : Text) (embedded : Bool) : List Text :=
  "replay" :: "--wlog" :: (110 :: 44 :: path) :: if embedded then ["--embedded-http-headers"] else []

theorem read_replay (path : Text) (e : Bool) :
    replayGrammar.read (replayWords path e).tail {} =
      .ok ({ log := .some (110 :: 44 :: path), embedded := e }, []) := by
  have hlog : ∀ words, replayGrammar.read ("--wlog" :: (110 :: 44 :: path) :: words) {} =
      replayGrammar.read words { log := .some (110 :: 44 :: path) } :=
    Grammar.read_argument (s := ⟨["--wlog"], .text fun t o => { o with log := t }⟩) rfl rfl rfl rfl rfl rfl rfl
  have hembedded : replayGrammar.read ["--embedded-http-headers"] { log := .some (110 :: 44 :: path) } =
      replayGrammar.read [] { log := .some (110 :: 44 :: path), embedded := true } :=
    Grammar.read_flag (s := ⟨["--embedded-http-headers"], .mark fun o => { o with embedded := true }⟩) rfl rfl rfl rfl
      rfl []
  have hend : ∀ o, replayGrammar.read [] o = .ok (o, []) := Grammar.readPieces_nil []
  cases e with
  | false => exact (hlog []).trans (hend _)
  | true => exact (hlog _).trans (hembedded.trans (hend _))

/-- The words of a replay of a log, without flags. -/
theorem ofWords_replay (path : Text) (e : Bool) :
    Invocation.ofWords (replayWords path e) =
      .ok ⟨0, false, .replay { log := .some (110 :: 44 :: path), embedded := e }⟩ := by
  obtain ⟨ps, hps, hwords⟩ : ∃ ps, grammar.pieces (replayWords path e).tail = .ok ps ∧
      ps.map Piece.word = (replayWords path e).tail := by
    cases e <;> exact ⟨_, rfl, rfl⟩
  have htake : Draft.takeCommand "replay" (replayWords path e).tail {} =
      .ok ({ command := .some (.replay { log := .some (110 :: 44 :: path), embedded := e }) }, []) := by
    change (Command.ofWords replayGrammar {} .replay (replayWords path e).tail >>= fun r =>
      Except.ok (({ command := .some r.1 } : Draft), r.2)) = _
    rw [Command.ofWords, read_replay]
    rfl
  have hread : grammar.read (replayWords path e) {} = Draft.takeCommand "replay" (replayWords path e).tail {} :=
    Grammar.read_rest rfl rfl rfl hps hwords {}
  rw [Invocation.ofWords_eq, hread, htake]
  rfl

end RequestLog.CommandLine
