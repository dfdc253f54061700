import TilePuzzle.Proofs.StrictTurn

/-!
# The turns of a game that a document defines

A document that is accepted defines a closed game whose levels fit it. So nothing is skipped in any
of its turns, and every turn can be taken back from its record alone: the record of a cancelled turn
is empty and its board is the old one, and any other turn is inverted by `Board.revert`.
-/

namespace TilePuzzle

/-! ## Accepted texts -/

/-- **An accepted text defines a closed game**, in which every rule has a cell and no turn passes
over anything. -/
theorem Session.isClosed_of_readGame {source : String} {game : Game} {log log' : Log}
    (h : (Session.readGame source).runOn log = (.ok game, log')) :
    game.IsClosed ∧
      (∀ group ∈ game.groups, ∀ rule ∈ group.rules, rule.cells ≠ []) ∧
      ∀ (maxRewrites : Nat) (input : Option Movement) (board : Board), board.Fits game →
        game.runTurnStrictly maxRewrites input board =
          .ok (game.runTurn maxRewrites input board) := by
  have hgives : (Session.readGame source).Gives game := ⟨log, log', h⟩
  have hclosed := (Session.isDefined_of_readGame hgives).isClosed
  obtain ⟨document, hpatterned, hdocument⟩ := Session.readGame_gives hgives
  refine ⟨hclosed, Game.cells_ne_nil_of_ofDocument hpatterned hdocument, ?_⟩
  exact fun maxRewrites input board hboard ↦
    Game.runTurnStrictly_eq hclosed maxRewrites input hboard

/-- A test that the first level of a text passes is passed by a level of a defined game. -/
theorem Session.exists_of_yields {source : String} {test : Game → Board → Bool}
    (h : (Session.readGame source).yields .empty
      (fun game ↦ (game.level? 0).any (test game)) = true) :
    ∃ (game : Game) (board : Board), game.IsDefined ∧ board.Fits game ∧ board.IsStill ∧
      test game board = true := by
  obtain ⟨game, log, hgame, hlevel⟩ := Logged.exists_of_yields h
  obtain ⟨board, hboard, htest⟩ := (Option.any_eq_true _ _).mp hlevel
  have hdefined := Session.isDefined_of_readGame ⟨.empty, log, hgame⟩
  obtain ⟨-, hfits, hstill⟩ := hdefined.isClosed.levels 0 board hboard
  exact ⟨game, board, hdefined, hfits, hstill, htest⟩

/-- A player in front of a free place. -/
def corridor : String :=
  "OBJECTS\nPlayer P\n\nFloor .\nCOLLISIONLAYERS\n.\nP\n" ++
    "RULES\n[ > P | . ] -> [ | . P ]\nLEVELS\nP.\n"

theorem exists_corridor : ∃ game log board,
    (Session.readGame corridor).runOn .empty = (.ok game, log) ∧ game.ruleCount = 4 ∧
      game.level? 0 = some board ∧
      (game.runTurn 1 (some (.toward .right)) board).record.firingCount = 1 := by
  have hread : (Session.readGame corridor).yields .empty (fun game ↦ game.ruleCount == 4 &&
      (game.level? 0).any fun board ↦
        (game.runTurn 1 (some (.toward .right)) board).record.firingCount == 1) = true := by
    decide +kernel
  obtain ⟨game, log, hgame, hplay⟩ := Logged.exists_of_yields hread
  rw [Bool.and_eq_true, beq_iff_eq, Option.any_eq_true] at hplay
  obtain ⟨hrules, board, hboard, hturn⟩ := hplay
  exact ⟨game, log, board, hgame, hrules, hboard, beq_iff_eq.mp hturn⟩

theorem exists_defined_corridor : ∃ (game : Game) (board : Board),
    game.IsDefined ∧ board.Fits game ∧ board.IsStill ∧
      (game.runTurn 1 (some (.toward .right)) board).cancelled = false ∧
      (game.runTurn 1 (some (.toward .right)) board).record.firingCount = 1 := by
  obtain ⟨game, log, board, hgame, -, hboard, hfired⟩ := exists_corridor
  have hdefined := Session.isDefined_of_readGame ⟨.empty, log, hgame⟩
  obtain ⟨-, hfits, hstill⟩ := hdefined.isClosed.levels 0 board hboard
  refine ⟨game, board, hdefined, hfits, hstill, eq_false_of_ne_true fun hcancelled ↦ ?_, hfired⟩
  -- a cancelled turn has no firing
  rw [Game.runTurn_of_cancelled hdefined.isLayered hfits hcancelled] at hfired
  cases hfired

/-- The corridor is a closed game, and going to the right passes over nothing. -/
theorem isClosed_corridor : ∃ game log board,
    (Session.readGame corridor).runOn .empty = (.ok game, log) ∧ game.IsClosed ∧
      game.ruleCount = 4 ∧ game.level? 0 = some board ∧
      game.runTurnStrictly 1 (some (.toward .right)) board =
        .ok (game.runTurn 1 (some (.toward .right)) board) := by
  obtain ⟨game, log, board, hgame, hrules, hboard, -⟩ := exists_corridor
  obtain ⟨hclosed, -, hstrict⟩ := Session.isClosed_of_readGame hgame
  exact ⟨game, log, board, hgame, hclosed, hrules, hboard,
    hstrict 1 _ board (hclosed.levels 0 board hboard).2.1⟩

/-! ## Taking turns back -/

/-- **Every turn can be taken back.** The record of a turn that was not cancelled leads from the
board after it to the board before it, and a cancelled turn leaves that board and an empty record.
-/
theorem Game.IsDefined.revert_runTurn {game : Game} (hgame : game.IsDefined) {board : Board}
    (hboard : board.Fits game) (hstill : board.IsStill) (maxRewrites : Nat)
    (input : Option Movement) :
    let turn := game.runTurn maxRewrites input board
    (turn.cancelled = false → turn.board.revert game turn.record.subturns = (board, [])) ∧
      (turn.cancelled = true →
        turn.board = board ∧ turn.record = ⟨input, []⟩ ∧ turn.violations = []) := by
  have hsettle := Board.settle_eq_self hstill
  refine ⟨fun h ↦ ?_, fun h ↦ ?_⟩
  · rw [Game.revert_of_runTurn hgame.isLayered hboard h, hsettle]
  · rw [Game.runTurn_of_cancelled hgame.isLayered hboard h, hsettle]
    exact ⟨rfl, rfl, rfl⟩

/-- The player goes to the right in the corridor and is taken back. -/
theorem revert_corridor : ∃ (game : Game) (board : Board),
    game.IsDefined ∧ board.Fits game ∧ board.IsStill ∧
      (game.runTurn 1 (some (.toward .right)) board).record.firingCount = 1 ∧
      (game.runTurn 1 (some (.toward .right)) board).board.revert game
        (game.runTurn 1 (some (.toward .right)) board).record.subturns = (board, []) := by
  obtain ⟨game, log, board, hgame, -, hboard, hfired⟩ := exists_corridor
  have hdefined := Session.isDefined_of_readGame ⟨.empty, log, hgame⟩
  obtain ⟨-, hfits, hstill⟩ := hdefined.isClosed.levels 0 board hboard
  have hrevert := hdefined.revert_runTurn hfits hstill 1 (some (.toward .right))
  cases hcancelled : (game.runTurn 1 (some (.toward .right)) board).cancelled with
  | false => exact ⟨game, board, hdefined, hfits, hstill, hfired, hrevert.1 hcancelled⟩
  | true =>
    rw [(hrevert.2 hcancelled).2.1] at hfired
    cases hfired

end TilePuzzle
