import TilePuzzle.Proofs.Definition.Game
import TilePuzzle.Proofs.Turn

/-!
# A turn skips nothing

A rewriting passes over what it cannot do: an object to be spawned that the game does not have, a
layer that the cell has no slot for, a cell of the rule that is off the board. A game that a
document defines gives no occasion for it.

## Strict turns

To say so, a turn is run *strictly*: in the same steps, but ending with a `Lapse` as soon as
something would be passed over. On a closed game and a board that fits it, the strict turn always
succeeds, and it is the turn.

## Why there is no lapse

The objects that a rule spawns are objects of a closed game, and a cell that fits has a slot for the
layer of each. A rule that matches has a row of cells on the board (`HasRow`), and this is kept
while they are rewritten one after the other.
-/

namespace TilePuzzle

/-! ## Strict rewriting -/

/-- What a rewriting would pass over. -/
inductive Lapse
  /-- The object to be spawned is unknown. -/
  | unknownObject (object : ObjectId)
  /-- The cell has no slot for the layer of the object to be spawned. -/
  | missingSlot (object : ObjectId) (layer : LayerId)
  /-- A cell of a rule that matched is off the board. -/
  | offBoard (position : Position)

/-- Spawns an object that is known and has a slot. -/
def CellEdit.spawnStrictly (game : Game) (edit : CellEdit) (spawn : Spawn) :
    Except Lapse CellEdit :=
  match game.template? spawn.object with
  | none => .error (.unknownObject spawn.object)
  | some template =>
    if template.layer.index < edit.cell.slots.length then .ok (edit.spawn game spawn)
    else .error (.missingSlot spawn.object template.layer)

/-- Rewrites a cell whose requirements are bound. -/
def RuleCell.rewriteStrictly (pattern : RuleCell) (game : Game) (cell : Cell)
    (bindings : List Binding) : Except Lapse CellEdit :=
  pattern.spawns.foldlM (CellEdit.spawnStrictly game) (pattern.beforeSpawns cell bindings)

/-- Rewrites a row of cells of the board that starts at a position. -/
def rewriteCellsStrictly (game : Game) (direction : Direction) :
    List (RuleCell × List Binding) → Position → Board → Except Lapse (Board × List CellChange)
  | [], _, board => .ok (board, [])
  | (pattern, bindings) :: rest, position, board =>
    match board.cell? position with
    | none => .error (.offBoard position)
    | some cell => do
      let edit ← pattern.rewriteStrictly game cell bindings
      if edit.cell = cell then
        rewriteCellsStrictly game direction rest (position.step direction) board
      else
        let (board, cells) ← rewriteCellsStrictly game direction rest (position.step direction)
          (board.setCell position edit.cell)
        return (board, ⟨position, edit.changes⟩ :: cells)

/-- Rewrites the board where a rule matched. -/
def Rule.rewriteStrictly (rule : Rule) (game : Game) (board : Board) (origin : Position)
    (bindings : List (List Binding)) : Except Lapse (Board × List CellChange) := do
  let (board, cells) ← rewriteCellsStrictly game rule.direction (rule.cells.zip bindings) origin
    board
  return (board, labelTransfers cells)

/-! ## Strict turns -/

/-- Tries rules at their origins until one fires or cancels the turn. -/
def searchStrictly (game : Game) :
    List (Position × Rule) → Board → Bool → Except Lapse Search
  | [], board, winRequested => .ok ⟨board, winRequested, .settled⟩
  | (origin, rule) :: candidates, board, winRequested =>
    match rule.match? board origin with
    | none => searchStrictly game candidates board winRequested
    | some bindings =>
      if rule.commands.cancel then
        .ok ⟨board, winRequested, .cancelled⟩
      else do
        match ← rule.rewriteStrictly game board origin bindings with
        | (board, []) =>
          searchStrictly game candidates board (winRequested || rule.commands.win)
        | (board, cell :: cells) =>
          return ⟨board, winRequested || rule.commands.win,
            .fired ⟨rule.line, rule.direction, origin, cell :: cells⟩⟩

/-- Searches again and again while the group may still fire. -/
def settleGroupStrictly (game : Game) (candidates : List (Position × Rule)) :
    Nat → List Firing → Board → Bool → Except Lapse GroupRun
  | 0, fired, board, winRequested => .ok ⟨board, winRequested, fired.reverse, .saturated⟩
  | budget + 1, fired, board, winRequested => do
    match ← searchStrictly game candidates board winRequested with
    | ⟨board, winRequested, .fired firing⟩ =>
      settleGroupStrictly game candidates budget (firing :: fired) board winRequested
    | ⟨board, winRequested, .cancelled⟩ =>
      return ⟨board, winRequested, fired.reverse, .cancelled⟩
    | ⟨board, winRequested, .settled⟩ => return ⟨board, winRequested, fired.reverse, .settled⟩

/-- Runs a group. -/
def RuleGroup.runStrictly (group : RuleGroup) (game : Game) (maxRewrites : Nat) (board : Board)
    (winRequested : Bool) : Except Lapse GroupRun :=
  settleGroupStrictly game (group.candidates board) (max 1 maxRewrites) [] board winRequested

/-- Runs groups until one cancels the turn; the first of them is in a given place. -/
def runGroupsStrictly (game : Game) (maxRewrites : Nat) :
    List RuleGroup → Nat → TurnState → Except Lapse TurnState
  | [], _, state => .ok state
  | group :: groups, place, state => do
    let run ← group.runStrictly game maxRewrites state.board state.winRequested
    let state := state.afterRun place run
    if state.cancelled then return state
    else runGroupsStrictly game maxRewrites groups (place + 1) state

/-- Runs a turn, ending with a lapse where the turn would pass over something. -/
def Game.runTurnStrictly (game : Game) (maxRewrites : Nat) (input : Option Movement)
    (board : Board) : Except Lapse Turn := do
  let last ← runGroupsStrictly game maxRewrites game.groups 0
    ⟨game.marked input board, false, [], [], false⟩
  return game.finishTurn input last

/-! ## Rows of cells on the board -/

namespace Board

/-- So many cells in a row lie on the board. -/
def HasRow (board : Board) (direction : Direction) : Nat → Position → Prop
  | 0, _ => True
  | length + 1, position =>
    board.contains position = true ∧ board.HasRow direction length (position.step direction)

theorem HasRow.sameShape {board board' : Board} (hshape : SameShape board board')
    {direction : Direction} {length : Nat} {position : Position}
    (h : board.HasRow direction length position) : board'.HasRow direction length position := by
  induction length generalizing position with
  | zero => trivial
  | succ length ih => exact ⟨(hshape.contains position).trans h.1, ih h.2⟩

theorem hasRow_of_matchCells {board : Board} {direction : Direction} {patterns : List RuleCell}
    {position : Position} {bindings : List (List Binding)}
    (h : matchCells board direction patterns position = some bindings) :
    board.HasRow direction patterns.length position := by
  induction patterns generalizing position bindings with
  | nil => trivial
  | cons pattern patterns ih =>
    obtain ⟨cell, hcell, h⟩ := Option.bind_eq_some_iff.mp h
    obtain ⟨first, -, h⟩ := Option.bind_eq_some_iff.mp h
    obtain ⟨rest, hrest, -⟩ := Option.bind_eq_some_iff.mp h
    exact ⟨contains_of_cell? hcell, ih hrest⟩

theorem HasRow.le {board : Board} {direction : Direction} {length length' : Nat}
    {position : Position} (h : board.HasRow direction length position) (hle : length' ≤ length) :
    board.HasRow direction length' position := by
  induction length' generalizing length position with
  | zero => trivial
  | succ length' ih =>
    cases length with
    | zero => exact absurd hle (Nat.not_succ_le_zero length')
    | succ length => exact ⟨h.1, ih h.2 (Nat.le_of_succ_le_succ hle)⟩

end Board

/-! ## Strict rewriting succeeds -/

namespace Game

variable {game : Game}

theorem exists_template?_of_lt {object : ObjectId} (h : object.index < game.objects.size) :
    ∃ template, game.template? object = some template :=
  ⟨game.objects[object.index], Array.getElem?_eq_getElem h⟩

end Game

variable {game : Game} {board : Board}

theorem CellEdit.Tells.spawnStrictly_eq (hgame : game.IsLayered) {start : Cell} {edit : CellEdit}
    (h : edit.Tells game start) {spawn : Spawn}
    (hspawn : spawn.object.index < game.objects.size) :
    edit.spawnStrictly game spawn = .ok (edit.spawn game spawn) := by
  obtain ⟨template, htemplate⟩ := Game.exists_template?_of_lt hspawn
  have hslot := h.fits.layer_lt hgame (Game.layer?_of_template? htemplate)
  rw [CellEdit.spawnStrictly, htemplate]
  exact if_pos hslot

theorem RuleCell.rewriteStrictly_eq (hgame : game.IsLayered) {pattern : RuleCell}
    (hpattern : pattern.Within game.objects.size) {cell : Cell} (hcell : cell.Fits game)
    (bindings : List Binding) :
    pattern.rewriteStrictly game cell bindings = .ok (pattern.rewrite game cell bindings) := by
  refine foldlM_eq_ok_foldl (P := CellEdit.Tells game cell) (fun edit spawn hspawn hedit ↦ ?_)
    (pattern.tells_beforeSpawns hgame hcell bindings)
  exact ⟨hedit.spawnStrictly_eq hgame (hpattern.spawns spawn hspawn), hedit.spawn hgame spawn⟩

theorem rewriteCellsStrictly_eq (hgame : game.IsLayered) (direction : Direction)
    {row : List (RuleCell × List Binding)}
    (hrow : ∀ bound ∈ row, bound.1.Within game.objects.size) {position : Position}
    (hboard : board.Fits game) (hplace : board.HasRow direction row.length position) :
    rewriteCellsStrictly game direction row position board =
      .ok (rewriteCells game direction row position board) := by
  induction row generalizing position board with
  | nil => rfl
  | cons first rest ih =>
    obtain ⟨pattern, bindings⟩ := first
    have hrest := fun bound hbound ↦ hrow bound (List.mem_cons_of_mem (pattern, bindings) hbound)
    obtain ⟨hfirst, hplace⟩ := hplace
    rw [rewriteCellsStrictly, rewriteCells]
    cases hcell : board.cell? position with
    | none =>
      rw [← Board.isSome_cell?, hcell] at hfirst
      simp at hfirst
    | some cell =>
      have hfits := hboard.cell? hcell
      have hedit := RuleCell.rewriteStrictly_eq hgame
        (hrow (pattern, bindings) List.mem_cons_self) hfits bindings
      dsimp only
      rw [hedit]
      -- with the cell rewritten, both go on in the same way
      change (if _ then _ else _) = _
      split
      · exact ih hrest hboard hplace
      · rw [ih hrest (hboard.setCell position (pattern.tells_rewrite hgame hfits bindings).fits)
          (hplace.sameShape (Board.sameShape_setCell board position _))]
        rfl

theorem Rule.rewriteStrictly_eq (hgame : game.IsLayered) {rule : Rule}
    (hrule : rule.Within game.objects.size) (hboard : board.Fits game) {origin : Position}
    {bindings : List (List Binding)} (hmatch : rule.match? board origin = some bindings) :
    rule.rewriteStrictly game board origin bindings =
      .ok (rule.rewrite game board origin bindings) := by
  have hrow : ∀ bound ∈ rule.cells.zip bindings, bound.1.Within game.objects.size :=
    fun bound hbound ↦ hrule bound.1 (List.of_mem_zip hbound).1
  have hle : (rule.cells.zip bindings).length ≤ rule.cells.length := by
    rw [List.length_zip]
    exact Nat.min_le_left _ _
  rw [Rule.rewriteStrictly, rewriteCellsStrictly_eq hgame rule.direction hrow hboard
    ((Board.hasRow_of_matchCells hmatch).le hle)]
  rfl

/-! ## Strict turns succeed -/

theorem searchStrictly_eq (hgame : game.IsLayered) {candidates : List (Position × Rule)}
    (hcandidates : ∀ candidate ∈ candidates, candidate.2.Within game.objects.size)
    (hboard : board.Fits game) (winRequested : Bool) :
    searchStrictly game candidates board winRequested =
      .ok (search game candidates board winRequested) := by
  induction candidates generalizing winRequested with
  | nil => rfl
  | cons first rest ih =>
    obtain ⟨origin, rule⟩ := first
    have hrule := hcandidates (origin, rule) List.mem_cons_self
    have hrest := fun other hother ↦ hcandidates other (List.mem_cons_of_mem (origin, rule) hother)
    rw [searchStrictly, search]
    cases hmatch : rule.match? board origin with
    | none => exact ih hrest winRequested
    | some bindings =>
      dsimp only
      split
      · rfl
      · have hself := rule.rewrite_eq_self hgame hboard origin bindings
        rw [Rule.rewriteStrictly_eq hgame hrule hboard hmatch]
        generalize rule.rewrite game board origin bindings = result at hself
        obtain ⟨board', cells⟩ := result
        cases cells with
        | nil =>
          obtain rfl : board' = board := hself rfl
          exact ih hrest _
        | cons cell cells => rfl

theorem settleGroupStrictly_eq (hgame : game.IsLayered) {candidates : List (Position × Rule)}
    (hcandidates : ∀ candidate ∈ candidates, candidate.2.Within game.objects.size) (budget : Nat)
    (fired : List Firing) (hboard : board.Fits game) (winRequested : Bool) :
    settleGroupStrictly game candidates budget fired board winRequested =
      .ok (settleGroup game candidates budget fired board winRequested) := by
  induction budget generalizing fired board winRequested with
  | zero => rfl
  | succ budget ih =>
    have hsearch := replay?_search hgame candidates hboard winRequested
    rw [settleGroupStrictly, settleGroup, searchStrictly_eq hgame hcandidates hboard]
    generalize search game candidates board winRequested = found at hsearch
    obtain ⟨board', winRequested', ended⟩ := found
    cases ended with
    | cancelled => rfl
    | settled => rfl
    | fired firing => exact ih (firing :: fired) (hboard.replay? hsearch) winRequested'

theorem RuleGroup.runStrictly_eq (hgame : game.IsLayered) {group : RuleGroup}
    (hgroup : ∀ rule ∈ group.rules, rule.Within game.objects.size) (maxRewrites : Nat)
    (hboard : board.Fits game) (winRequested : Bool) :
    group.runStrictly game maxRewrites board winRequested =
      .ok (group.run game maxRewrites board winRequested) := by
  refine settleGroupStrictly_eq hgame (fun candidate hcandidate ↦ ?_) _ _ hboard winRequested
  obtain ⟨origin, -, hcandidate⟩ := List.mem_flatMap.mp hcandidate
  obtain ⟨rule, hrule, rfl⟩ := List.mem_map.mp hcandidate
  exact hgroup rule hrule

theorem runGroupsStrictly_eq (hgame : game.IsLayered) (maxRewrites : Nat)
    {groups : List RuleGroup}
    (hgroups : ∀ group ∈ groups, ∀ rule ∈ group.rules, rule.Within game.objects.size)
    (place : Nat) {start : Board} {state : TurnState} (hstate : state.Tells game start) :
    runGroupsStrictly game maxRewrites groups place state =
      .ok (runGroups game maxRewrites groups place state) := by
  induction groups generalizing place state with
  | nil => rfl
  | cons group groups ih =>
    have hrest := fun other hother ↦ hgroups other (List.mem_cons_of_mem group hother)
    rw [runGroupsStrictly, runGroups, RuleGroup.runStrictly_eq hgame
      (hgroups group List.mem_cons_self) maxRewrites hstate.fits_board]
    change (if (state.runGroup game maxRewrites place group).cancelled = true then _ else _) = _
    split
    · rfl
    · exact ih hrest (place + 1) (hstate.runGroup hgame maxRewrites place group)

namespace Game

/-- **A turn of a closed game skips nothing**: run strictly, it is the same turn. -/
theorem runTurnStrictly_eq (hgame : game.IsClosed) (maxRewrites : Nat) (input : Option Movement)
    (hboard : board.Fits game) :
    game.runTurnStrictly maxRewrites input board = .ok (game.runTurn maxRewrites input board) := by
  have hstart := TurnState.tells_start (fits_marked input hboard)
  rw [runTurnStrictly, runGroupsStrictly_eq hgame.isLayered maxRewrites hgame.rules 0 hstart]
  rfl

end Game

end TilePuzzle
