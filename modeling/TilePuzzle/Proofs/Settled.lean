import TilePuzzle.Proofs.Course
import TilePuzzle.Proofs.Definition.Turn

/-!
# Settled groups

A search ends at the first firing, and while it runs it tries rules on the live board. Still the
last search of a settled group has seen every rule at every position of one and the same board: on
that board no match changes anything, no rule that cancels matches, and every order to win has been
heard. Conversely a win is never made up, for some rule that orders it has matched on a board of its
group.
-/

namespace TilePuzzle

variable {game : Game} {board : Board} {rule : Rule} {origin : Position}

/-! ## Where rules match -/

/-- The rule matches with its first cell at a position of the board. -/
def Rule.MatchesAt (rule : Rule) (board : Board) (origin : Position) : Prop :=
  board.contains origin = true ∧ (rule.match? board origin).isSome = true

theorem Rule.contains_of_match? (hcells : rule.cells ≠ []) {bindings : List (List Binding)}
    (h : rule.match? board origin = some bindings) : board.contains origin = true := by
  obtain ⟨pattern, patterns, heq⟩ := List.exists_cons_of_ne_nil hcells
  rw [match?, heq] at h
  obtain ⟨cell, hcell, -⟩ := Option.bind_eq_some_iff.mp h
  exact Board.contains_of_cell? hcell

theorem Rule.rewrite_of_cells_eq_nil (hcells : rule.cells = []) (bindings : List (List Binding)) :
    (rule.rewrite game board origin bindings).1 = board := by
  rw [rewrite, hcells]
  rfl

theorem ordersWin_iff : ordersWin board (origin, rule) = true ↔
    (rule.match? board origin).isSome = true ∧ rule.commands.win = true := by
  rw [ordersWin, Bool.and_eq_true]

/-! ## Groups -/

/-- The rules of a group have nothing left to do on a board. -/
structure RuleGroup.IsSettledOn (game : Game) (group : RuleGroup) (board : Board) : Prop where
  rewrite_eq : ∀ rule ∈ group.rules, ∀ origin bindings,
    rule.match? board origin = some bindings →
      (rule.rewrite game board origin bindings).1 = board
  not_cancels : ∀ rule ∈ group.rules, rule.commands.cancel = true →
    ∀ origin, ¬rule.MatchesAt board origin

theorem RuleGroup.isSettledOn {group : RuleGroup}
    (h : ∀ candidate ∈ group.candidates board, stop? game board candidate = none) :
    group.IsSettledOn game board where
  rewrite_eq rule hrule origin bindings hmatch := by
    by_cases hcells : rule.cells = []
    · exact Rule.rewrite_of_cells_eq_nil hcells bindings
    · have hmem := mem_candidates.mpr ⟨Rule.contains_of_match? hcells hmatch, hrule⟩
      exact (stop?_eq_none_iff.mp (h _ hmem) bindings hmatch).2
  not_cancels rule hrule hcancel origin hmatches := by
    obtain ⟨horigin, hmatch⟩ := hmatches
    obtain ⟨bindings, hbindings⟩ := Option.isSome_iff_exists.mp hmatch
    have hnot := stop?_eq_none_iff.mp (h _ (mem_candidates.mpr ⟨horigin, hrule⟩)) bindings hbindings
    rw [hcancel] at hnot
    cases hnot.1

/-! ## Stages -/

namespace Stage

variable {stage : Stage}

/-- When a settled group is through, nothing is left to do and no order to win was missed. -/
theorem isSettledOn (h : stage.Runs game) (hended : stage.run.ended = .settled) :
    stage.group.IsSettledOn game stage.run.board ∧
      ∀ rule ∈ stage.group.rules, rule.commands.win = true →
        ∀ origin, rule.MatchesAt stage.run.board origin → stage.run.winRequested = true := by
  rw [Runs, hended] at h
  obtain ⟨-, hsettled⟩ := h.of_settled
  refine ⟨RuleGroup.isSettledOn fun candidate hmem ↦ (hsettled candidate hmem).1, ?_⟩
  intro rule hrule hwin origin hmatches
  have hmem := RuleGroup.mem_candidates.mpr ⟨hmatches.1, hrule⟩
  exact (hsettled _ hmem).2 (ordersWin_iff.mpr ⟨hmatches.2, hwin⟩)

/-- A win that was not ordered before was ordered by a rule that matched while the group ran. -/
theorem exists_matchesAt (h : stage.Runs game) (hended : stage.run.ended ≠ .cancelled)
    (hbefore : stage.ordered = false) (hafter : stage.run.winRequested = true) :
    ∃ board ∈ stage.boards, ∃ rule ∈ stage.group.rules,
      rule.commands.win = true ∧ ∃ origin, rule.MatchesAt board origin := by
  obtain ⟨board, hboard, ⟨origin, rule⟩, hmem, hwin⟩ :=
    RuleGroup.Runs.exists_ordersWin h hended hbefore hafter
  obtain ⟨horigin, hrule⟩ := RuleGroup.mem_candidates.mp hmem
  obtain ⟨hmatch, hordered⟩ := ordersWin_iff.mp hwin
  exact ⟨board, hboard, rule, hrule, hordered, origin, horigin, hmatch⟩

end Stage

/-! ## Turns -/

theorem Game.not_cancelled_of_winRequested {maxRewrites : Nat} {input : Option Movement}
    (h : (game.runTurn maxRewrites input board).winRequested = true) :
    (game.runTurn maxRewrites input board).cancelled = false := by
  rw [runTurn_eq, finishTurn] at h ⊢
  split at h
  · cases h
  · next hcancelled => rw [if_neg hcancelled]

/-- **A settled group is really settled, and no order to win is missed or made up.** -/
theorem Game.IsDefined.isSettledOn_runTurn (hgame : game.IsDefined) (hboard : board.Fits game)
    (maxRewrites : Nat) (input : Option Movement) :
    let turn := game.runTurn maxRewrites input board
    let stages := game.stages maxRewrites input board
    (turn.cancelled = false → turn.saturated = [] →
      stages.map Stage.group = game.groups ∧
        ∀ stage ∈ stages, stage.group.IsSettledOn game stage.run.board ∧
          ∀ rule ∈ stage.group.rules, rule.commands.win = true →
            ∀ origin, rule.MatchesAt stage.run.board origin → turn.winRequested = true) ∧
      (turn.winRequested = true → turn.cancelled = false ∧
        ∃ stage ∈ stages, ∃ board ∈ stage.boards, ∃ rule ∈ stage.group.rules,
          rule.commands.win = true ∧ ∃ origin, rule.MatchesAt board origin) := by
  dsimp only
  constructor
  · intro hcancelled hsaturated
    have hfollows := Game.follows_lastState hgame.isLayered hboard hcancelled
    rw [Game.runTurn_of_not_cancelled hcancelled] at hsaturated ⊢
    refine ⟨hfollows.groups_eq, fun stage hstage ↦ ?_⟩
    obtain ⟨hsettled, horders⟩ := Stage.isSettledOn (hfollows.runs stage hstage).1
      ((hfollows.settled hsaturated).2 stage hstage)
    refine ⟨hsettled, fun rule hrule hwin origin hmatches ↦ ?_⟩
    exact hfollows.winRequested_of_mem stage hstage (horders rule hrule hwin origin hmatches)
  · intro hwon
    have hcancelled := Game.not_cancelled_of_winRequested hwon
    have hfollows := Game.follows_lastState hgame.isLayered hboard hcancelled
    rw [Game.runTurn_of_not_cancelled hcancelled] at hwon
    obtain ⟨stage, hstage, hbefore, hafter⟩ := hfollows.exists_mem rfl hwon
    obtain ⟨hruns, hended⟩ := hfollows.runs stage hstage
    exact ⟨hcancelled, stage, hstage, Stage.exists_matchesAt hruns hended hbefore hafter⟩

/-- A player in front of an exit. -/
def doorway : String :=
  "OBJECTS\nPlayer P\n\nExit E\nCOLLISIONLAYERS\nE\nP\n" ++
    "RULES\n[ > P | ] -> [ | P ]\n[ P E ] -> win\nLEVELS\nPE\n"

/-- The player goes to the right and wins, and every group is settled. -/
theorem isSettledOn_doorway : ∃ (game : Game) (board : Board),
    game.IsDefined ∧ board.Fits game ∧
      (game.runTurn 2 (some (.toward .right)) board).record.firingCount = 1 ∧
      (game.runTurn 2 (some (.toward .right)) board).winRequested = true ∧
      (game.runTurn 2 (some (.toward .right)) board).saturated = [] ∧
      ∀ stage ∈ game.stages 2 (some (.toward .right)) board,
        stage.group.IsSettledOn game stage.run.board := by
  have hread : (Session.readGame doorway).yields .empty (fun game ↦
      (game.level? 0).any fun board ↦
        (game.runTurn 2 (some (.toward .right)) board).record.firingCount == 1 &&
          (game.runTurn 2 (some (.toward .right)) board).winRequested &&
          (game.runTurn 2 (some (.toward .right)) board).saturated == []) = true := by
    decide +kernel
  obtain ⟨game, board, hgame, hboard, -, htest⟩ := Session.exists_of_yields hread
  rw [Bool.and_eq_true, Bool.and_eq_true, beq_iff_eq, beq_iff_eq] at htest
  obtain ⟨⟨hfired, hwon⟩, hsaturated⟩ := htest
  obtain ⟨hsettled, horders⟩ := hgame.isSettledOn_runTurn hboard 2 (some (.toward .right))
  obtain ⟨-, hstages⟩ := hsettled (horders hwon).1 hsaturated
  exact ⟨game, board, hgame, hboard, hfired, hwon, hsaturated, fun stage hstage ↦
    (hstages stage hstage).1⟩

end TilePuzzle
