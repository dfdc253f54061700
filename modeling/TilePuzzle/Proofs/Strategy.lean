import TilePuzzle.Proofs.Search
import TilePuzzle.Proofs.Definition.Turn

/-!
# The strategy of a turn

What a turn does can be told without a live board that rules are tried on. The pairs of a position
and a rule are visited row by row, each row from the left, and at a position in the order of
declaration; a pair is judged on the board as it stands, and the first one that stops the search
either cancels the turn or hands over the rewritten copy, and then the search starts over. A group
is passed when no pair stops the search, or when it has fired as often as it may.

## The two programs

Here this is written down as a program of its own, and the engine is shown to compute the same. The
two are built alike, of searches, groups and turns, and compared at each of these three. A turn that
is cancelled is the exception: the strategy goes no further, while the engine has a record to take
back.
-/

namespace TilePuzzle

/-! ## The order of the pairs -/

/-- The pairs of a position and a rule of the group, row by row. -/
def RuleGroup.pairs (group : RuleGroup) (board : Board) : List (Position × Rule) :=
  (List.range board.height).flatMap fun (y : Nat) ↦
    (List.range board.width).flatMap fun (x : Nat) ↦ group.rules.map fun rule ↦ (⟨x, y⟩, rule)

theorem RuleGroup.candidates_eq_pairs (group : RuleGroup) (board : Board) :
    group.candidates board = group.pairs board := by
  simp only [candidates, pairs, Board.positions_eq_rows, List.flatMap_assoc, List.flatMap_map]

/-! ## Passing a group -/

/-- What comes of a group that was passed without cancelling the turn. -/
structure Passage where
  board : Board
  firings : List Firing
  /-- Whether a pair was visited whose rule matches and orders a win. -/
  winRequested : Bool
  /-- Whether the group had fired as often as it might. -/
  saturated : Bool

/-- Passes a group that may fire so many times; there is no passage if the turn is cancelled. -/
def RuleGroup.passage? (game : Game) (group : RuleGroup) : Nat → Board → Option Passage
  | 0, board => some ⟨board, [], false, true⟩
  | budget + 1, board =>
    let winRequested := (tried game board (group.pairs board)).any (ordersWin board)
    match (group.pairs board).findSome? (stop? game board) with
    | none => some ⟨board, [], winRequested, false⟩
    | some .cancel => none
    | some (.fire after firing) =>
      (group.passage? game budget after).map fun passage ↦
        { passage with
          firings := firing :: passage.firings
          winRequested := winRequested || passage.winRequested }

/-- How the run of a group that was passed ended. -/
def Passage.ended (passage : Passage) : RunEnd := if passage.saturated then .saturated else .settled

variable {game : Game}

/-- **The engine passes a group as the strategy does.** -/
theorem settleGroup_spec (hgame : game.IsLayered) (group : RuleGroup) (budget : Nat)
    (fired : List Firing) {board : Board} (hboard : board.Fits game) (winRequested : Bool) :
    match group.passage? game budget board with
    | none => (settleGroup game (group.candidates board) budget fired board winRequested).ended =
        .cancelled
    | some passage => settleGroup game (group.candidates board) budget fired board winRequested =
        ⟨passage.board, winRequested || passage.winRequested, fired.reverse ++ passage.firings,
          passage.ended⟩ := by
  induction budget generalizing fired board winRequested with
  | zero => simp [RuleGroup.passage?, settleGroup, Passage.ended]
  | succ budget ih =>
    have hsearch := search_spec hgame hboard (group.candidates board) winRequested
    rw [RuleGroup.passage?, settleGroup, ← group.candidates_eq_pairs]
    cases hstop : (group.candidates board).findSome? (stop? game board) with
    | none =>
      rw [hstop] at hsearch
      simp [hsearch, Passage.ended]
    | some stop =>
      rw [hstop] at hsearch
      cases stop with
      | cancel =>
        generalize search game (group.candidates board) board winRequested = found at hsearch ⊢
        obtain ⟨after, winRequested', ended⟩ := found
        obtain ⟨rfl, rfl⟩ := hsearch
        rfl
      | fire after firing =>
        -- the board keeps its size, so the next search visits the same pairs
        obtain ⟨hafter, hcandidates⟩ := group.fits_of_fire hgame hboard hstop
        have hrest := ih (firing :: fired) hafter
          (winRequested || (tried game board (group.candidates board)).any (ordersWin board))
        rw [hcandidates] at hrest
        rw [hsearch]
        dsimp only
        cases hpassage : group.passage? game budget after with
        | none =>
          rw [hpassage] at hrest
          exact hrest
        | some passage =>
          rw [hpassage] at hrest
          dsimp only [Option.map_some]
          rw [hrest, Bool.or_assoc, List.reverse_cons, List.append_assoc, List.singleton_append]
          rfl

/-! ## Passing all groups -/

namespace TurnState

/-- The state of a turn after the group in a given place was passed. -/
def pass (state : TurnState) (place : Nat) (passage : Passage) : TurnState where
  board := passage.board
  winRequested := state.winRequested || passage.winRequested
  subturns := if passage.firings.isEmpty then state.subturns
    else state.subturns ++ [⟨passage.firings⟩]
  saturated := if passage.saturated then state.saturated ++ [place] else state.saturated
  cancelled := false

/-- Passes groups until one cancels the turn; the first of them is in a given place. -/
def passGroups (game : Game) (maxRewrites : Nat) : List RuleGroup → Nat → TurnState → TurnState
  | [], _, state => state
  | group :: groups, place, state =>
    match group.passage? game (max 1 maxRewrites) state.board with
    | none => { state with cancelled := true }
    | some passage => passGroups game maxRewrites groups (place + 1) (state.pass place passage)

theorem runGroup_spec (hgame : game.IsLayered) (state : TurnState)
    (hboard : state.board.Fits game) (maxRewrites place : Nat) (group : RuleGroup) :
    match group.passage? game (max 1 maxRewrites) state.board with
    | none => (state.runGroup game maxRewrites place group).cancelled = true ∧
        (state.runGroup game maxRewrites place group).saturated = state.saturated
    | some passage =>
        state.runGroup game maxRewrites place group = state.pass place passage := by
  have hrun := settleGroup_spec hgame group (max 1 maxRewrites) [] hboard state.winRequested
  rw [runGroup_eq, RuleGroup.run]
  cases hpassage : group.passage? game (max 1 maxRewrites) state.board with
  | none =>
    rw [hpassage] at hrun
    dsimp only at hrun
    simp [afterRun, hrun]
  | some passage =>
    rw [hpassage] at hrun
    dsimp only at hrun
    rw [hrun, List.reverse_nil, List.nil_append]
    cases hsaturated : passage.saturated with
    | false => simp [afterRun, pass, Passage.ended, hsaturated]
    | true => simp [afterRun, pass, Passage.ended, hsaturated]

/-- Both accounts of a turn tell whether it is cancelled and which groups were cut short, and if it
is not cancelled, they are the same. -/
theorem runGroups_spec (hgame : game.IsLayered) (maxRewrites : Nat) (groups : List RuleGroup)
    (place : Nat) (state : TurnState) (hboard : state.board.Fits game) :
    let last := runGroups game maxRewrites groups place state
    let passed := passGroups game maxRewrites groups place state
    last.cancelled = passed.cancelled ∧ last.saturated = passed.saturated ∧
      (passed.cancelled = false → last = passed) := by
  induction groups generalizing place state with
  | nil => exact ⟨rfl, rfl, fun _ ↦ rfl⟩
  | cons group groups ih =>
    have hgroup := runGroup_spec hgame state hboard maxRewrites place group
    dsimp only at ih ⊢
    rw [runGroups, passGroups]
    cases hpassage : group.passage? game (max 1 maxRewrites) state.board with
    | none =>
      rw [hpassage] at hgroup
      obtain ⟨hcancelled, hsaturated⟩ := hgroup
      dsimp only
      -- board and subturns of the engine still tell what is to be taken back, so they may differ
      rw [if_pos hcancelled]
      exact ⟨hcancelled, hsaturated, fun h ↦ absurd h (by simp)⟩
    | some passage =>
      rw [hpassage] at hgroup
      dsimp only at hgroup ⊢
      have hfits := hboard.replay?
        (group.replay?_run hgame maxRewrites hboard state.winRequested).1
      rw [hgroup, if_neg (by simp [pass])]
      exact ih (place + 1) (state.pass place passage) (by rw [← hgroup]; exact hfits)

end TurnState

/-! ## Turns -/

namespace Game

/-- The turn that the strategy gives: a cancelled one leaves the board that it began with. -/
def strategicTurn (game : Game) (maxRewrites : Nat) (input : Option Movement) (board : Board) :
    Turn :=
  let last := TurnState.passGroups game maxRewrites game.groups 0
    ⟨game.marked input board, false, [], [], false⟩
  if last.cancelled then
    { board := board.settle
      record := ⟨input, []⟩
      cancelled := true
      winRequested := false
      saturated := last.saturated
      violations := [] }
  else
    { board := last.board.settle
      record := ⟨input, last.subturns⟩
      cancelled := false
      winRequested := last.winRequested
      saturated := last.saturated
      violations := [] }

/-- **The engine carries out the strategy**: record, flags and board of every turn are the same. -/
theorem IsDefined.runTurn_eq_strategicTurn (hgame : game.IsDefined) {board : Board}
    (hboard : board.Fits game) (maxRewrites : Nat) (input : Option Movement) :
    game.runTurn maxRewrites input board = game.strategicTurn maxRewrites input board := by
  obtain ⟨hcancelled, hsaturated, hlast⟩ := TurnState.runGroups_spec hgame.isLayered maxRewrites
    game.groups 0 ⟨game.marked input board, false, [], [], false⟩ (fits_marked input hboard)
  have hturn := game.cancelled_runTurn maxRewrites input board
  rw [strategicTurn]
  split
  · next h =>
    have hyes := hturn.trans (hcancelled.trans h)
    rw [runTurn_of_cancelled hgame.isLayered hboard hyes, ← hsaturated]
    rfl
  · next h =>
    have hnot := eq_false_of_ne_true h
    rw [runTurn_of_not_cancelled (hturn.trans (hcancelled.trans hnot)), ← hlast hnot]
    rfl

end Game

/-- The player goes to the right in the corridor, by the strategy as by the engine. -/
theorem strategicTurn_corridor : ∃ (game : Game) (board : Board),
    game.IsDefined ∧ board.Fits game ∧
      (game.strategicTurn 1 (some (.toward .right)) board).record.firingCount = 1 ∧
      game.runTurn 1 (some (.toward .right)) board =
        game.strategicTurn 1 (some (.toward .right)) board := by
  obtain ⟨game, board, hgame, hboard, -, -, hfired⟩ := exists_defined_corridor
  have hsame := hgame.runTurn_eq_strategicTurn hboard 1 (some (.toward .right))
  exact ⟨game, board, hgame, hboard, hsame ▸ hfired, hsame⟩

end TilePuzzle
