import TilePuzzle.Change.Revert
import TilePuzzle.Rule.Rewrite

/-!
# Turns

A turn gives the player's objects the movement that was asked for and then settles the rule groups
one after the other. To settle a group, its rules are tried at every position, row by row and at
each position in the order of declaration; the first rule that matches and changes the board fires,
and the search starts over from the top left. The group is settled when a whole search changes
nothing, or *saturated* when it has fired as often as it may.

A rule that orders `cancel` ends the turn where it matches, and everything done so far is taken
back. Any other order counts as soon as its rule matches, whether or not it changes anything.
-/

namespace TilePuzzle

/-! ## Searching for the next firing -/

/-- How a search ended. -/
inductive SearchEnd
  | fired (firing : Firing)
  | cancelled
  | settled
deriving DecidableEq, Inhabited

/-- What a search leaves behind. -/
structure Search where
  board : Board
  /-- Whether a rule that orders a win has matched during the turn. -/
  winRequested : Bool
  ended : SearchEnd
deriving DecidableEq, Inhabited

/-- The places where the rules of a group may match, in the order in which they are tried. -/
def RuleGroup.candidates (group : RuleGroup) (board : Board) : List (Position × Rule) :=
  board.positions.flatMap fun origin ↦ group.rules.map fun rule ↦ (origin, rule)

/-- Tries rules at their origins until one fires or cancels the turn. -/
def search (game : Game) : List (Position × Rule) → Board → Bool → Search
  | [], board, winRequested => ⟨board, winRequested, .settled⟩
  | (origin, rule) :: candidates, board, winRequested =>
    match rule.match? board origin with
    | none => search game candidates board winRequested
    | some bindings =>
      if rule.commands.cancel then
        ⟨board, winRequested, .cancelled⟩
      else
        match rule.rewrite game board origin bindings with
        | (board, []) => search game candidates board (winRequested || rule.commands.win)
        | (board, cell :: cells) =>
          ⟨board, winRequested || rule.commands.win,
            .fired ⟨rule.line, rule.direction, origin, cell :: cells⟩⟩

/-! ## Settling a group -/

/-- How the run of a group ended. -/
inductive RunEnd
  | settled
  | saturated
  | cancelled
deriving DecidableEq, Inhabited

/-- What the run of a group leaves behind. -/
structure GroupRun where
  board : Board
  winRequested : Bool
  firings : List Firing
  ended : RunEnd
deriving DecidableEq, Inhabited

/-- Searches again and again while the group may still fire; `fired` holds its firings so far, the
latest first. -/
def settleGroup (game : Game) (candidates : List (Position × Rule)) :
    Nat → List Firing → Board → Bool → GroupRun
  | 0, fired, board, winRequested => ⟨board, winRequested, fired.reverse, .saturated⟩
  | budget + 1, fired, board, winRequested =>
    match search game candidates board winRequested with
    | ⟨board, winRequested, .fired firing⟩ =>
      settleGroup game candidates budget (firing :: fired) board winRequested
    | ⟨board, winRequested, .cancelled⟩ => ⟨board, winRequested, fired.reverse, .cancelled⟩
    | ⟨board, winRequested, .settled⟩ => ⟨board, winRequested, fired.reverse, .settled⟩

/-- Runs a group that may fire `maxRewrites` times, and at least once. -/
def RuleGroup.run (group : RuleGroup) (game : Game) (maxRewrites : Nat) (board : Board)
    (winRequested : Bool) : GroupRun :=
  settleGroup game (group.candidates board) (max 1 maxRewrites) [] board winRequested

/-! ## Running all groups -/

/-- The state of a turn between two groups. -/
structure TurnState where
  board : Board
  winRequested : Bool
  subturns : List Subturn
  /-- The places of the groups that were saturated. -/
  saturated : List Nat
  cancelled : Bool
deriving DecidableEq, Inhabited

/-- Runs one more group, the one in a given place. -/
def TurnState.runGroup (game : Game) (maxRewrites : Nat) (state : TurnState) (place : Nat)
    (group : RuleGroup) : TurnState :=
  let run := group.run game maxRewrites state.board state.winRequested
  { board := run.board
    winRequested := run.winRequested
    subturns := if run.firings.isEmpty then state.subturns else state.subturns ++ [⟨run.firings⟩]
    saturated := if run.ended = .saturated then state.saturated ++ [place] else state.saturated
    cancelled := run.ended = .cancelled }

/-- Runs groups until one cancels the turn; the first of them is in a given place. -/
def runGroups (game : Game) (maxRewrites : Nat) : List RuleGroup → Nat → TurnState → TurnState
  | [], _, state => state
  | group :: groups, place, state =>
    let state := state.runGroup game maxRewrites place group
    if state.cancelled then state else runGroups game maxRewrites groups (place + 1) state

/-! ## Turns -/

/-- Everything that a turn brings about. -/
structure Turn where
  /-- The board after the turn, free of intents. -/
  board : Board
  /-- What was done; nothing when the turn was cancelled. -/
  record : TurnRecord
  cancelled : Bool
  /-- Whether a rule that orders a win matched in a turn that was not cancelled. -/
  winRequested : Bool
  /-- The places of the groups that were cut short. -/
  saturated : List Nat
  /-- The changes of a cancelled turn that could not be taken back. -/
  violations : List Violation
deriving DecidableEq, Inhabited

/-- Runs a turn; without an input no object is marked. -/
def Game.runTurn (game : Game) (maxRewrites : Nat) (input : Option Movement) (board : Board) :
    Turn :=
  let marked := match input with
    | none => board
    | some movement => board.mark game.player movement
  let state := runGroups game maxRewrites game.groups 0 ⟨marked, false, [], [], false⟩
  if state.cancelled then
    match state.board.revert game state.subturns with
    | (board, violations) =>
      { board
        record := ⟨input, []⟩
        cancelled := true
        winRequested := false
        saturated := state.saturated
        violations }
  else
    { board := state.board.settle
      record := ⟨input, state.subturns⟩
      cancelled := false
      winRequested := state.winRequested
      saturated := state.saturated
      violations := [] }

end TilePuzzle
