import TilePuzzle.Turn
import TilePuzzle.Proofs.Rewrite

/-!
# A turn tells what it does

The record of a turn, replayed on the board with the player's objects marked, leads to the board
that the last group left; this holds after every firing, whether a group was settled, saturated or
ended by a `cancel`. Since taking back inverts replaying, a turn can be undone from its record
alone, and a cancelled turn leaves no trace.

## The invariant

`TurnState.Tells` climbs with the engine: one search fires at most once, the run of a group appends
its firings, and each group with firings appends a subturn. It says besides that every firing has
arisen on a board for the game, of the shape that the turn began with, which is why all cells in a
record lie on the board.
-/

namespace TilePuzzle

/-! ## The changes of firings -/

namespace Firing

/-- The changes of some firings with their positions, in the order in which they were made. -/
def placed (firings : List Firing) : List (Position × Change) :=
  firings.flatMap fun firing ↦ CellChange.placed firing.cells

@[simp] theorem placed_append (firings firings' : List Firing) :
    placed (firings ++ firings') = placed firings ++ placed firings' := List.flatMap_append

end Firing

theorem placedChanges_append (subturns : List Subturn) (firings : List Firing) :
    placedChanges (subturns ++ [⟨firings⟩]) = placedChanges subturns ++ Firing.placed firings := by
  rw [placedChanges, List.flatMap_append, List.flatMap_singleton]
  rfl

theorem TurnRecord.placedChanges_of_isEmpty {record : TurnRecord} (h : record.isEmpty = true) :
    placedChanges record.subturns = [] := by
  rw [isEmpty, List.all_eq_true] at h
  refine List.flatMap_eq_nil_iff.mpr fun subturn hsubturn ↦ ?_
  rw [List.isEmpty_iff.mp (h subturn hsubturn)]
  rfl

theorem Board.revert_of_isEmpty (game : Game) (board : Board) {record : TurnRecord}
    (h : record.isEmpty = true) : board.revert game record.subturns = (board.settle, []) := by
  rw [revert, TurnRecord.placedChanges_of_isEmpty h]
  rfl

/-- The firing that ended a search, if one did. -/
def SearchEnd.firings : SearchEnd → List Firing
  | fired firing => [firing]
  | cancelled => []
  | settled => []

/-- The firing is of some rule that matched on a board for the game, of a given shape. -/
def Firing.Arises (game : Game) (start : Board) (firing : Firing) : Prop :=
  ∃ (rule : Rule) (board : Board) (bindings : List (List Binding)),
    start.SameShape board ∧ board.Fits game ∧
      rule.match? board firing.origin = some bindings ∧
      firing.cells = (rule.rewrite game board firing.origin bindings).2

variable {game : Game}

theorem Firing.Arises.sameShape {start start' : Board} {firing : Firing}
    (h : firing.Arises game start') (hshape : start.SameShape start') :
    firing.Arises game start := by
  obtain ⟨rule, board, bindings, hboard, hrest⟩ := h
  exact ⟨rule, board, bindings, hshape.trans hboard, hrest⟩

theorem Firing.Arises.contains {start : Board} {firing : Firing} (h : firing.Arises game start)
    {change : CellChange} (hchange : change ∈ firing.cells) :
    start.contains change.position = true := by
  obtain ⟨rule, board, bindings, hshape, -, -, hcells⟩ := h
  rw [hcells] at hchange
  rw [← hshape.contains]
  exact Rule.contains_of_mem_rewrite hchange

/-! ## Searching -/

theorem replay?_search (hgame : game.IsLayered) (candidates : List (Position × Rule))
    {board : Board} (hboard : board.Fits game) (winRequested : Bool) :
    board.replay? game (Firing.placed (search game candidates board winRequested).ended.firings) =
      some (search game candidates board winRequested).board := by
  induction candidates generalizing winRequested with
  | nil => rfl
  | cons first rest ih =>
    obtain ⟨origin, rule⟩ := first
    rw [search]
    cases rule.match? board origin with
    | none => exact ih winRequested
    | some bindings =>
      dsimp only
      split
      · rfl
      · have hreplay := rule.replay?_rewrite hgame hboard origin bindings
        have hself := rule.rewrite_eq_self hgame hboard origin bindings
        generalize rule.rewrite game board origin bindings = result at hreplay hself
        obtain ⟨board', cells⟩ := result
        cases cells with
        | nil =>
          -- the search goes on, and the board is the one that it began with
          obtain rfl : board' = board := hself rfl
          exact ih _
        | cons cell cells =>
          rw [SearchEnd.firings, Firing.placed, List.flatMap_singleton]
          exact hreplay

theorem arises_search (hgame : game.IsLayered) (candidates : List (Position × Rule))
    {board : Board} (hboard : board.Fits game) (winRequested : Bool) :
    ∀ firing ∈ (search game candidates board winRequested).ended.firings,
      firing.Arises game board := by
  intro firing h
  induction candidates generalizing winRequested with
  | nil => exact absurd h List.not_mem_nil
  | cons first rest ih =>
    obtain ⟨origin, rule⟩ := first
    rw [search] at h
    cases hmatch : rule.match? board origin with
    | none =>
      rw [hmatch] at h
      exact ih _ h
    | some bindings =>
      rw [hmatch] at h
      dsimp only at h
      split at h
      · exact absurd h List.not_mem_nil
      · have hself := rule.rewrite_eq_self hgame hboard origin bindings
        cases hrewrite : rule.rewrite game board origin bindings with
        | mk board' cells =>
          rw [hrewrite] at h hself
          cases cells with
          | nil =>
            obtain rfl : board' = board := hself rfl
            exact ih _ h
          | cons cell cells =>
            obtain rfl := List.mem_singleton.mp h
            exact ⟨rule, board, bindings, .refl board, hboard, hmatch, by rw [hrewrite]⟩

/-! ## Settling a group -/

theorem replay?_settleGroup (hgame : game.IsLayered) (candidates : List (Position × Rule))
    (budget : Nat) (fired : List Firing) {board : Board} (hboard : board.Fits game)
    (winRequested : Bool) :
    ∃ firings, (settleGroup game candidates budget fired board winRequested).firings =
        fired.reverse ++ firings ∧
      board.replay? game (Firing.placed firings) =
        some (settleGroup game candidates budget fired board winRequested).board ∧
      ∀ firing ∈ firings, firing.Arises game board := by
  induction budget generalizing fired board winRequested with
  | zero => exact ⟨[], (List.append_nil _).symm, rfl, fun _ h ↦ absurd h List.not_mem_nil⟩
  | succ budget ih =>
    have hsearch := replay?_search hgame candidates hboard winRequested
    have harises := arises_search hgame candidates hboard winRequested
    rw [settleGroup]
    generalize search game candidates board winRequested = found at hsearch harises
    obtain ⟨board', winRequested', ended⟩ := found
    cases ended with
    | cancelled =>
      exact ⟨[], (List.append_nil _).symm, hsearch, fun _ h ↦ absurd h List.not_mem_nil⟩
    | settled =>
      exact ⟨[], (List.append_nil _).symm, hsearch, fun _ h ↦ absurd h List.not_mem_nil⟩
    | fired firing =>
      obtain ⟨firings, hfirings, hreplay, hrest⟩ :=
        ih (firing :: fired) (hboard.replay? hsearch) winRequested'
      refine ⟨firing :: firings, ?_, ?_, ?_⟩
      · simp [hfirings]
      · rw [← List.singleton_append, Firing.placed_append]
        exact Board.replay?_append_of hsearch hreplay
      · intro other hother
        rcases List.mem_cons.mp hother with rfl | hother
        · exact harises other List.mem_cons_self
        · exact (hrest other hother).sameShape (Board.replay?_sameShape hsearch)

theorem RuleGroup.replay?_run (hgame : game.IsLayered) (group : RuleGroup) (maxRewrites : Nat)
    {board : Board} (hboard : board.Fits game) (winRequested : Bool) :
    board.replay? game (Firing.placed (group.run game maxRewrites board winRequested).firings) =
        some (group.run game maxRewrites board winRequested).board ∧
      ∀ firing ∈ (group.run game maxRewrites board winRequested).firings,
        firing.Arises game board := by
  obtain ⟨firings, hfirings, hrun⟩ := replay?_settleGroup hgame (group.candidates board)
    (max 1 maxRewrites) [] hboard winRequested
  rw [List.reverse_nil, List.nil_append] at hfirings
  rw [RuleGroup.run, hfirings]
  exact hrun

/-! ## Running all groups -/

namespace TurnState

/-- The state of a turn after the run of the group in a given place. -/
def afterRun (state : TurnState) (place : Nat) (run : GroupRun) : TurnState where
  board := run.board
  winRequested := run.winRequested
  subturns := if run.firings.isEmpty then state.subturns else state.subturns ++ [⟨run.firings⟩]
  saturated := if run.ended = .saturated then state.saturated ++ [place] else state.saturated
  cancelled := run.ended = .cancelled

theorem runGroup_eq (state : TurnState) (game : Game) (maxRewrites place : Nat)
    (group : RuleGroup) : state.runGroup game maxRewrites place group =
      state.afterRun place (group.run game maxRewrites state.board state.winRequested) := rfl

/-- The subturns lead from the board that the turn began with to the present board. -/
structure Tells (game : Game) (start : Board) (state : TurnState) : Prop where
  fits : start.Fits game
  replay?_eq : start.replay? game (placedChanges state.subturns) = some state.board
  arises : ∀ subturn ∈ state.subturns, ∀ firing ∈ subturn.firings, firing.Arises game start

variable {start : Board} {state : TurnState}

theorem tells_start (h : start.Fits game) : Tells game start ⟨start, false, [], [], false⟩ where
  fits := h
  replay?_eq := rfl
  arises _ hmem := absurd hmem List.not_mem_nil

theorem Tells.fits_board (h : state.Tells game start) : state.board.Fits game :=
  h.fits.replay? h.replay?_eq

/-- One more group keeps the record true, however its run ends. -/
theorem Tells.runGroup (h : state.Tells game start) (hgame : game.IsLayered)
    (maxRewrites place : Nat) (group : RuleGroup) :
    (state.runGroup game maxRewrites place group).Tells game start := by
  obtain ⟨hrun, harises⟩ := group.replay?_run hgame maxRewrites h.fits_board state.winRequested
  rw [runGroup_eq]
  -- a group without firings leaves no subturn
  by_cases hempty : (group.run game maxRewrites state.board state.winRequested).firings.isEmpty
  · have hsubturns : (state.afterRun place (group.run game maxRewrites state.board
        state.winRequested)).subturns = state.subturns := if_pos hempty
    rw [List.isEmpty_iff.mp hempty] at hrun
    refine ⟨h.fits, ?_, ?_⟩
    · rw [hsubturns, h.replay?_eq]
      exact hrun
    · rw [hsubturns]
      exact h.arises
  · have hsubturns : (state.afterRun place (group.run game maxRewrites state.board
        state.winRequested)).subturns = state.subturns ++ [⟨(group.run game maxRewrites
          state.board state.winRequested).firings⟩] := if_neg hempty
    refine ⟨h.fits, ?_, ?_⟩
    · rw [hsubturns, placedChanges_append]
      exact Board.replay?_append_of h.replay?_eq hrun
    · rw [hsubturns]
      intro subturn hsubturn firing hfiring
      rcases List.mem_append.mp hsubturn with hsubturn | hsubturn
      · exact h.arises subturn hsubturn firing hfiring
      · obtain rfl := List.mem_singleton.mp hsubturn
        exact (harises firing hfiring).sameShape (Board.replay?_sameShape h.replay?_eq)

theorem Tells.runGroups (h : state.Tells game start) (hgame : game.IsLayered) (maxRewrites : Nat)
    (groups : List RuleGroup) (place : Nat) :
    (runGroups game maxRewrites groups place state).Tells game start := by
  induction groups generalizing place state with
  | nil => exact h
  | cons group groups ih =>
    have hgroup := h.runGroup hgame maxRewrites place group
    rw [TilePuzzle.runGroups]
    split
    · exact hgroup
    · exact ih hgroup (place + 1)

end TurnState

/-! ## Turns -/

namespace Game

/-- The board with the objects marked that carry out an input. -/
def marked (game : Game) (input : Option Movement) (board : Board) : Board :=
  match input with
  | none => board
  | some movement => board.mark game.player movement

@[simp] theorem settle_marked (game : Game) (input : Option Movement) (board : Board) :
    (game.marked input board).settle = board.settle := by
  cases input with
  | none => rfl
  | some movement => exact Board.settle_mark board game.player movement

theorem sameShape_marked (game : Game) (input : Option Movement) (board : Board) :
    board.SameShape (game.marked input board) := by
  cases input with
  | none => exact Board.SameShape.refl board
  | some movement => exact Board.sameShape_mark board game.player movement

theorem fits_marked (input : Option Movement) {board : Board} (hboard : board.Fits game) :
    (game.marked input board).Fits game := by
  cases input with
  | none => exact hboard
  | some movement => exact hboard.mark game.player movement

/-- Where a turn stands when its last group has run. -/
def lastState (game : Game) (maxRewrites : Nat) (input : Option Movement) (board : Board) :
    TurnState :=
  runGroups game maxRewrites game.groups 0 ⟨game.marked input board, false, [], [], false⟩

theorem tells_lastState (hgame : game.IsLayered) (maxRewrites : Nat) (input : Option Movement)
    {board : Board} (hboard : board.Fits game) :
    (game.lastState maxRewrites input board).Tells game (game.marked input board) :=
  (TurnState.tells_start (fits_marked input hboard)).runGroups hgame maxRewrites game.groups 0

variable {maxRewrites : Nat} {input : Option Movement} {board : Board}

/-- Ends a turn: a cancelled one is taken back. -/
def finishTurn (game : Game) (input : Option Movement) (last : TurnState) : Turn :=
  if last.cancelled then
    { board := (last.board.revert game last.subturns).1
      record := ⟨input, []⟩
      cancelled := true
      winRequested := false
      saturated := last.saturated
      violations := (last.board.revert game last.subturns).2 }
  else
    { board := last.board.settle
      record := ⟨input, last.subturns⟩
      cancelled := false
      winRequested := last.winRequested
      saturated := last.saturated
      violations := [] }

theorem runTurn_eq (game : Game) (maxRewrites : Nat) (input : Option Movement) (board : Board) :
    game.runTurn maxRewrites input board =
      game.finishTurn input (game.lastState maxRewrites input board) := rfl

@[simp] theorem cancelled_runTurn (game : Game) (maxRewrites : Nat) (input : Option Movement)
    (board : Board) : (game.runTurn maxRewrites input board).cancelled =
      (game.lastState maxRewrites input board).cancelled := by
  rw [runTurn_eq, finishTurn]
  cases h : (game.lastState maxRewrites input board).cancelled with
  | false => rfl
  | true => rfl

theorem runTurn_of_not_cancelled (h : (game.runTurn maxRewrites input board).cancelled = false) :
    game.runTurn maxRewrites input board =
      { board := (game.lastState maxRewrites input board).board.settle
        record := ⟨input, (game.lastState maxRewrites input board).subturns⟩
        cancelled := false
        winRequested := (game.lastState maxRewrites input board).winRequested
        saturated := (game.lastState maxRewrites input board).saturated
        violations := [] } := by
  rw [cancelled_runTurn] at h
  rw [runTurn_eq, finishTurn, if_neg (ne_true_of_eq_false h)]

theorem isEmpty_record_of_cancelled (game : Game) (maxRewrites : Nat) (input : Option Movement)
    (board : Board) (h : (game.runTurn maxRewrites input board).cancelled = true) :
    (game.runTurn maxRewrites input board).record.isEmpty = true := by
  rw [cancelled_runTurn] at h
  rw [runTurn_eq, finishTurn, if_pos h]
  rfl

/-- A turn that was not cancelled ends, up to intents, where its record leads. -/
theorem replay?_runTurn (hgame : game.IsLayered) (hboard : board.Fits game)
    (h : (game.runTurn maxRewrites input board).cancelled = false) :
    ∃ last, (game.marked input board).replay? game
        (placedChanges (game.runTurn maxRewrites input board).record.subturns) = some last ∧
      (game.runTurn maxRewrites input board).board = last.settle := by
  rw [runTurn_of_not_cancelled h]
  exact ⟨_, (tells_lastState hgame maxRewrites input hboard).replay?_eq, rfl⟩

/-- A cancelled turn takes back all that it did. -/
theorem runTurn_of_cancelled (hgame : game.IsLayered) (hboard : board.Fits game)
    (h : (game.runTurn maxRewrites input board).cancelled = true) :
    game.runTurn maxRewrites input board =
      { board := board.settle
        record := ⟨input, []⟩
        cancelled := true
        winRequested := false
        saturated := (game.lastState maxRewrites input board).saturated
        violations := [] } := by
  have htells := tells_lastState hgame maxRewrites input hboard
  have hrevert := Board.revert_of_replay? htells.replay?_eq
  rw [settle_marked] at hrevert
  rw [cancelled_runTurn] at h
  rw [runTurn_eq, finishTurn, if_pos h, hrevert]

/-- Nothing is ever found missing or in the way while a cancelled turn is taken back. -/
theorem violations_runTurn (hgame : game.IsLayered) (hboard : board.Fits game) :
    (game.runTurn maxRewrites input board).violations = [] := by
  cases h : (game.runTurn maxRewrites input board).cancelled with
  | false => rw [runTurn_of_not_cancelled h]
  | true => rw [runTurn_of_cancelled hgame hboard h]

/-- Taking back a turn that was not cancelled leaves the board that it began with. -/
theorem revert_of_runTurn (hgame : game.IsLayered) (hboard : board.Fits game)
    (h : (game.runTurn maxRewrites input board).cancelled = false) :
    (game.runTurn maxRewrites input board).board.revert game
      (game.runTurn maxRewrites input board).record.subturns = (board.settle, []) := by
  obtain ⟨last, hreplay, hlast⟩ := replay?_runTurn hgame hboard h
  simp [hlast, Board.revert_of_replay? hreplay]

/-! ## What a turn keeps -/

theorem fits_runTurn (hgame : game.IsLayered) (hboard : board.Fits game) :
    (game.runTurn maxRewrites input board).board.Fits game := by
  cases h : (game.runTurn maxRewrites input board).cancelled with
  | false =>
    obtain ⟨last, hreplay, hlast⟩ := replay?_runTurn hgame hboard h
    rw [hlast]
    exact ((fits_marked input hboard).replay? hreplay).settle
  | true =>
    rw [runTurn_of_cancelled hgame hboard h]
    exact hboard.settle

theorem isStill_runTurn (hgame : game.IsLayered) (hboard : board.Fits game) :
    (game.runTurn maxRewrites input board).board.IsStill := by
  cases h : (game.runTurn maxRewrites input board).cancelled with
  | false =>
    rw [runTurn_of_not_cancelled h]
    exact Board.isStill_settle _
  | true =>
    rw [runTurn_of_cancelled hgame hboard h]
    exact Board.isStill_settle board

theorem sameShape_runTurn (hgame : game.IsLayered) (hboard : board.Fits game) :
    board.SameShape (game.runTurn maxRewrites input board).board := by
  cases h : (game.runTurn maxRewrites input board).cancelled with
  | false =>
    obtain ⟨last, hreplay, hlast⟩ := replay?_runTurn hgame hboard h
    rw [hlast]
    exact (sameShape_marked game input board).trans
      ((Board.replay?_sameShape hreplay).trans (Board.sameShape_settle last))
  | true =>
    rw [runTurn_of_cancelled hgame hboard h]
    exact Board.sameShape_settle board

theorem mem_cells_runTurn (hgame : game.IsLayered) (hboard : board.Fits game)
    {subturn : Subturn} {firing : Firing} {cell : CellChange}
    (hsubturn : subturn ∈ (game.runTurn maxRewrites input board).record.subturns)
    (hfiring : firing ∈ subturn.firings) (hcell : cell ∈ firing.cells) :
    board.contains cell.position = true ∧
      ∀ change ∈ cell.changes, ∃ layer, game.layer? change.object = some layer := by
  have htells := tells_lastState hgame maxRewrites input hboard
  cases h : (game.runTurn maxRewrites input board).cancelled with
  | false =>
    rw [runTurn_of_not_cancelled h] at hsubturn
    refine ⟨?_, fun change hchange ↦ ?_⟩
    · rw [← (sameShape_marked game input board).contains]
      exact (htells.arises subturn hsubturn firing hfiring).contains hcell
    · have hmem : (cell.position, change) ∈
          placedChanges (game.lastState maxRewrites input board).subturns := by
        refine List.mem_flatMap.mpr ⟨subturn, hsubturn, List.mem_flatMap.mpr ⟨firing, hfiring, ?_⟩⟩
        exact List.mem_flatMap.mpr ⟨cell, hcell, List.mem_map_of_mem hchange⟩
      exact (Board.replay?_mem htells.replay?_eq hmem).2
  | true =>
    rw [runTurn_of_cancelled hgame hboard h] at hsubturn
    exact absurd hsubturn List.not_mem_nil

/-! ## Turns on a still board -/

/-- The record of a turn leads back to the board before it, also if the turn was cancelled. -/
theorem revert_board_runTurn (hgame : game.IsLayered) (hboard : board.Fits game)
    (hstill : board.IsStill) (maxRewrites : Nat) (input : Option Movement) :
    (game.runTurn maxRewrites input board).board.revert game
      (game.runTurn maxRewrites input board).record.subturns = (board, []) := by
  have hsettle := Board.settle_eq_self hstill
  cases h : (game.runTurn maxRewrites input board).cancelled with
  | false => rw [revert_of_runTurn hgame hboard h, hsettle]
  | true =>
    rw [runTurn_of_cancelled hgame hboard h, Board.revert_of_isEmpty game _ rfl, hsettle, hsettle]

theorem board_runTurn_of_isEmpty (hgame : game.IsLayered) (hboard : board.Fits game)
    (hstill : board.IsStill) (maxRewrites : Nat) (input : Option Movement)
    (h : (game.runTurn maxRewrites input board).record.isEmpty = true) :
    (game.runTurn maxRewrites input board).board = board := by
  have hrevert := revert_board_runTurn hgame hboard hstill maxRewrites input
  rw [Board.revert_of_isEmpty game _ h,
    Board.settle_eq_self (isStill_runTurn hgame hboard)] at hrevert
  exact (Prod.mk.inj hrevert).1

end Game

end TilePuzzle
