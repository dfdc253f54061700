import TilePuzzle.Proofs.Bound
import TilePuzzle.Proofs.Definition.Turn

/-!
# The bound is not noticed below it

The bound on the firings of a group is a guard against rules that would rewrite for ever. It has no
other effect: a run that ends before its budget is used up is the same run with any greater budget,
and so a turn in which no group is saturated is the same turn under any greater bound, to the last
detail of its record. It does not matter whether the turn is cancelled, and nothing is assumed of
the game or of the board.
-/

namespace TilePuzzle

/-! ## One group -/

/-- A run that ends before its budget is used up does not notice a greater budget. -/
theorem settleGroup_of_le (game : Game) (candidates : List (Position × Rule))
    {budget budget' : Nat} (hle : budget ≤ budget') (fired : List Firing) (board : Board)
    (winRequested : Bool)
    (h : (settleGroup game candidates budget fired board winRequested).ended ≠ .saturated) :
    settleGroup game candidates budget' fired board winRequested =
      settleGroup game candidates budget fired board winRequested := by
  induction budget generalizing budget' fired board winRequested with
  | zero => exact absurd rfl h
  | succ budget ih =>
    obtain ⟨budget', rfl⟩ : ∃ budget'', budget' = budget'' + 1 := ⟨budget' - 1, by omega⟩
    have hle' : budget ≤ budget' := Nat.le_of_succ_le_succ hle
    rw [settleGroup] at h
    rw [settleGroup, settleGroup]
    -- both budgets begin with the same search
    generalize search game candidates board winRequested = found at h ⊢
    obtain ⟨after, winRequested', ended⟩ := found
    cases ended with
    | fired firing => exact ih hle' (firing :: fired) after winRequested' h
    | cancelled => rfl
    | settled => rfl

theorem RuleGroup.run_of_le (group : RuleGroup) (game : Game) {maxRewrites maxRewrites' : Nat}
    (hle : maxRewrites ≤ maxRewrites') (board : Board) (winRequested : Bool)
    (h : (group.run game maxRewrites board winRequested).ended ≠ .saturated) :
    group.run game maxRewrites' board winRequested =
      group.run game maxRewrites board winRequested := by
  have hmax : max 1 maxRewrites ≤ max 1 maxRewrites' := by omega
  exact settleGroup_of_le game (group.candidates board) hmax [] board winRequested h

/-! ## All groups -/

theorem saturated_prefix_runGroups (game : Game) (maxRewrites : Nat) (groups : List RuleGroup)
    (place : Nat) (state : TurnState) :
    state.saturated <+: (runGroups game maxRewrites groups place state).saturated :=
  ⟨_, (TurnState.accounts_runGroups game maxRewrites groups place state).saturated_eq.symm⟩

theorem runGroups_of_le (game : Game) {maxRewrites maxRewrites' : Nat}
    (hle : maxRewrites ≤ maxRewrites') (groups : List RuleGroup) (place : Nat) (state : TurnState)
    (h : (runGroups game maxRewrites groups place state).saturated = []) :
    runGroups game maxRewrites' groups place state =
      runGroups game maxRewrites groups place state := by
  induction groups generalizing place state with
  | nil => rfl
  | cons group groups ih =>
    have hfirst : (state.runGroup game maxRewrites place group).saturated = [] := by
      have hprefix := saturated_prefix_runGroups game maxRewrites groups (place + 1)
        (state.runGroup game maxRewrites place group)
      rw [runGroups] at h
      split at h
      · exact h
      · rw [h] at hprefix
        exact List.prefix_nil.mp hprefix
    have hsame : state.runGroup game maxRewrites' place group =
        state.runGroup game maxRewrites place group := by
      rw [TurnState.runGroup_eq] at hfirst
      obtain ⟨-, hended⟩ := TurnState.saturated_afterRun_eq_nil hfirst
      rw [TurnState.runGroup_eq, TurnState.runGroup_eq,
        group.run_of_le game hle state.board state.winRequested hended]
    rw [runGroups] at h
    rw [runGroups, runGroups, hsame]
    split
    · rfl
    · next hcancelled =>
      rw [if_neg hcancelled] at h
      exact ih (place + 1) _ h

/-! ## Turns -/

/-- **The bound is not noticed below it**: a turn in which no group is saturated is the same turn
under any greater bound. -/
theorem Game.runTurn_of_le (game : Game) {maxRewrites maxRewrites' : Nat}
    (hle : maxRewrites ≤ maxRewrites') (input : Option Movement) (board : Board)
    (h : (game.runTurn maxRewrites input board).saturated = []) :
    game.runTurn maxRewrites' input board = game.runTurn maxRewrites input board := by
  have hlast : (game.lastState maxRewrites input board).saturated = [] := by
    rwa [saturated_runTurn, ← List.nil_append (saturatedPlaces _ _),
      ← (game.accounts_lastState maxRewrites input board).saturated_eq] at h
  have hsame : game.lastState maxRewrites' input board = game.lastState maxRewrites input board :=
    runGroups_of_le game hle game.groups 0 _ hlast
  rw [runTurn_eq, runTurn_eq, hsame]

/-- Going to the right in the corridor takes one firing; a bound of two is not reached, so any
greater bound gives the same turn. -/
theorem runTurn_of_le_corridor : ∃ (game : Game) (board : Board),
    game.IsDefined ∧ board.Fits game ∧
      (game.runTurn 2 (some (.toward .right)) board).record.firingCount = 1 ∧
      (game.runTurn 2 (some (.toward .right)) board).saturated = [] ∧
      game.runTurn 10000 (some (.toward .right)) board =
        game.runTurn 2 (some (.toward .right)) board := by
  have hread : (Session.readGame corridor).yields .empty (fun game ↦
      (game.level? 0).any fun board ↦
        (game.runTurn 2 (some (.toward .right)) board).record.firingCount == 1 &&
          (game.runTurn 2 (some (.toward .right)) board).saturated == []) = true := by
    decide +kernel
  obtain ⟨game, board, hgame, hboard, -, htest⟩ := Session.exists_of_yields hread
  rw [Bool.and_eq_true, beq_iff_eq, beq_iff_eq] at htest
  obtain ⟨hfired, hsaturated⟩ := htest
  have hle : 2 ≤ 10000 := by decide
  exact ⟨game, board, hgame, hboard, hfired, hsaturated,
    game.runTurn_of_le hle (some (.toward .right)) board hsaturated⟩

end TilePuzzle
