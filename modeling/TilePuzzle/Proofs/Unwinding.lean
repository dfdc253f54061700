import TilePuzzle.Proofs.Definition.Turn
import TilePuzzle.Proofs.Revert

/-!
# Taking back a record that does not fit

A record may be of another board or of no board at all. Taking it back still goes through its
changes one by one, the latest first, and of each one of three things happens: it is inverted, which
writes the slot of its object in its cell and nothing else; or it is passed over, being a change of
intent; or it is *skipped*, which leaves the board as it is and adds one violation that says why.
Which of them happens is decided by the board as it stands, so a record may fit in part.

`Reverting.Handles` says so of one change and `Reverting.Unwinds` of a list of them.

## The order

The latest change comes first at every level of the record: the latest subturn, in it the latest
firing, in it the last cell and in that the last change (`reverse_placedChanges`). So one list of
changes stands for four loops, one within the other (`Board.revert_eq_loops`).
-/

namespace TilePuzzle

/-! ## Writing one slot -/

/-- The boards differ in one slot at most, which holds `slot` on the second one. -/
structure Board.WritesSlot (position : Position) (layer : LayerId) (slot : Option Occupant)
    (board board' : Board) : Prop where
  sameShape : board.SameShape board'
  cell?_of_ne : ∀ other, other ≠ position → board'.cell? other = board.cell? other
  exists_cell : ∃ cell cell', board.cell? position = some cell ∧
    board'.cell? position = some cell' ∧ cell'.slots.length = cell.slots.length ∧
    cell'.occupant? layer = slot ∧
    ∀ other, other ≠ layer → cell'.occupant? other = cell.occupant? other

theorem Board.writesSlot_setSlot {board : Board} {position : Position} {cell : Cell}
    {layer : LayerId} (hcell : board.cell? position = some cell)
    (hlayer : layer.index < cell.slots.length) (slot : Option Occupant) :
    WritesSlot position layer slot board (board.setCell position (cell.setSlot layer slot)) where
  sameShape := sameShape_setCell ..
  cell?_of_ne _ hne := cell?_setCell_ne hne _
  exists_cell := ⟨cell, cell.setSlot layer slot, hcell,
    cell?_setCell_self (contains_of_cell? hcell) _, Cell.length_setSlot ..,
    Cell.occupant?_setSlot_self hlayer slot, fun _ hne ↦ Cell.occupant?_setSlot_ne hne slot⟩

/-! ## One change -/

/-- Why a change does not fit a board. -/
inductive Violation.Explains (game : Game) (board : Board) (position : Position) (change : Change) :
    Violation → Prop
  /-- The object is not of the game. -/
  | unknownObject (hobject : game.layer? change.object = none) :
      Explains game board position change (.unknownObject change.object)
  /-- The position is off the board. -/
  | outOfBounds {layer : LayerId} (hlayer : game.layer? change.object = some layer)
      (hcell : board.cell? position = none) :
      Explains game board position change (.outOfBounds position)
  /-- The object is said to have come, but is not there. -/
  | missingOccupant {layer : LayerId} {cell : Cell} (hkind : change.kind.isPlacement = true)
      (hlayer : game.layer? change.object = some layer) (hcell : board.cell? position = some cell)
      (hslot : (cell.occupant? layer).map Occupant.object ≠ some change.object) :
      Explains game board position change (.missingOccupant change.object position)
  /-- The object is said to have gone, but there is something on its layer. -/
  | layerOccupied {layer : LayerId} {cell : Cell} {occupant : Occupant}
      (hkind : change.kind.isRemoval = true) (hlayer : game.layer? change.object = some layer)
      (hcell : board.cell? position = some cell) (hslot : cell.occupant? layer = some occupant) :
      Explains game board position change
        (.layerOccupied change.object occupant.object position)

/-- What may become of a change that is to be taken back. -/
inductive Reverting.Handles (game : Game) (position : Position) (change : Change) :
    Reverting → Reverting → Prop
  /-- An object that came is taken out. -/
  | takesOut {board board' : Board} {violations : Array Violation} {layer : LayerId} {cell : Cell}
      (hkind : change.kind.isPlacement = true) (hlayer : game.layer? change.object = some layer)
      (hcell : board.cell? position = some cell)
      (hslot : (cell.occupant? layer).map Occupant.object = some change.object)
      (hwrites : board.WritesSlot position layer none board') :
      Handles game position change ⟨board, violations⟩ ⟨board', violations⟩
  /-- An object that went is put back. -/
  | putsBack {board board' : Board} {violations : Array Violation} {layer : LayerId} {cell : Cell}
      (hkind : change.kind.isRemoval = true) (hlayer : game.layer? change.object = some layer)
      (hcell : board.cell? position = some cell) (hslot : cell.occupant? layer = none)
      (hwrites : board.WritesSlot position layer (some (.still change.object)) board') :
      Handles game position change ⟨board, violations⟩ ⟨board', violations⟩
  /-- A change of intent is passed over. -/
  | passes {board : Board} {violations : Array Violation} {layer : LayerId} {cell : Cell}
      (hplacement : change.kind.isPlacement = false) (hremoval : change.kind.isRemoval = false)
      (hlayer : game.layer? change.object = some layer)
      (hcell : board.cell? position = some cell) :
      Handles game position change ⟨board, violations⟩ ⟨board, violations⟩
  /-- A change that does not fit is skipped and reported. -/
  | skips {board : Board} {violations : Array Violation} {violation : Violation}
      (hexplains : violation.Explains game board position change) :
      Handles game position change ⟨board, violations⟩ ⟨board, violations.push violation⟩

/-- The changes are handled one after the other. -/
inductive Reverting.Unwinds (game : Game) :
    List (Position × Change) → Reverting → Reverting → Prop
  | nil (state : Reverting) : Unwinds game [] state state
  | cons {position : Position} {change : Change} {changes : List (Position × Change)}
      {state mid last : Reverting} (hfirst : Handles game position change state mid)
      (hrest : Unwinds game changes mid last) :
      Unwinds game ((position, change) :: changes) state last

namespace Reverting

variable {game : Game} {state : Reverting}

/-- A change of an object with a slot in a cell of the board: what is in the slot decides. -/
theorem handles_step_of_cell? {position : Position} {change : Change} {template : Template}
    {cell : Cell} (htemplate : game.template? change.object = some template)
    (hcell : state.board.cell? position = some cell)
    (hlt : template.layer.index < cell.slots.length) :
    state.Handles game position change (state.step game (position, change)) := by
  obtain ⟨board, violations⟩ := state
  have hlayer := Game.layer?_of_template? htemplate
  rw [step, Board.revertChange]
  dsimp only at hcell ⊢
  rw [htemplate, hcell]
  dsimp only
  rw [Cell.revert]
  cases hplacement : change.kind.isPlacement with
  | true =>
    rw [if_pos rfl]
    by_cases hslot : (cell.occupant? template.layer).map Occupant.object = some change.object
    · rw [if_pos hslot]
      exact .takesOut hplacement hlayer hcell hslot (Board.writesSlot_setSlot hcell hlt none)
    · rw [if_neg hslot]
      exact .skips (.missingOccupant hplacement hlayer hcell hslot)
  | false =>
    rw [if_neg Bool.false_ne_true]
    cases hremoval : change.kind.isRemoval with
    | true =>
      rw [if_pos rfl]
      cases hslot : cell.occupant? template.layer with
      | none => exact .putsBack hremoval hlayer hcell hslot (Board.writesSlot_setSlot hcell hlt _)
      | some occupant => exact .skips (.layerOccupied hremoval hlayer hcell hslot)
    | false =>
      have hsame : board.setCell position cell = board := Board.setCell_eq_self hcell
      rw [if_neg Bool.false_ne_true]
      dsimp only [Except.map]
      rw [hsame]
      exact .passes hplacement hremoval hlayer hcell

/-- **Each change is handled**: it is inverted, passed over or skipped. -/
theorem handles_step (hgame : game.IsLayered) (hboard : state.board.Fits game)
    (position : Position) (change : Change) :
    state.Handles game position change (state.step game (position, change)) := by
  cases htemplate : game.template? change.object with
  | none =>
    have hobject : game.layer? change.object = none := by
      rw [Game.layer?, htemplate]
      rfl
    rw [step, Board.revertChange, htemplate]
    exact .skips (.unknownObject hobject)
  | some template =>
    have hlayer := Game.layer?_of_template? htemplate
    cases hcell : state.board.cell? position with
    | none =>
      rw [step, Board.revertChange, htemplate, hcell]
      exact .skips (.outOfBounds hlayer hcell)
    | some cell =>
      exact handles_step_of_cell? htemplate hcell ((hboard.cell? hcell).layer_lt hgame hlayer)

theorem fits_step (hboard : state.board.Fits game) (change : Position × Change) :
    (state.step game change).board.Fits game := by
  rw [step]
  split
  · next after hafter => exact hboard.revertChange hafter
  · exact hboard

/-- **A list of changes is unwound** whatever they are. -/
theorem unwinds_foldl (hgame : game.IsLayered) (hboard : state.board.Fits game)
    (changes : List (Position × Change)) :
    state.Unwinds game changes (changes.foldl (step game) state) := by
  induction changes generalizing state with
  | nil => exact .nil state
  | cons change changes ih =>
    exact .cons (handles_step hgame hboard change.1 change.2) (ih (fits_step hboard change))

end Reverting

/-! ## Whole records -/

/-- The latest subturn comes first, in it the latest firing, and so on down to the changes. -/
theorem reverse_placedChanges (subturns : List Subturn) :
    (placedChanges subturns).reverse =
      subturns.reverse.flatMap fun subturn ↦ subturn.firings.reverse.flatMap fun firing ↦
        firing.cells.reverse.flatMap fun cell ↦
          cell.changes.reverse.map fun change ↦ (cell.position, change) := by
  simp only [placedChanges, List.reverse_flatMap, Function.comp_def, List.map_reverse]

/-- Taking back is four loops, one within the other, each from the end of its list. -/
theorem Board.revert_eq_loops (game : Game) (subturns : List Subturn) (board : Board) :
    board.revert game subturns =
      let last : Reverting := subturns.reverse.foldl (fun state subturn ↦
        subturn.firings.reverse.foldl (fun state firing ↦
          firing.cells.reverse.foldl (fun state cell ↦
            cell.changes.reverse.foldl (fun state change ↦
              state.step game (cell.position, change)) state) state) state) ⟨board, #[]⟩
      (last.board.settle, last.violations.toList) := by
  simp only [revert, reverse_placedChanges, List.foldl_flatMap, List.foldl_map]

/-- **Any record can be taken back in part.** Its changes are handled one by one, the latest first,
and what comes out is a still board of the same size that fits the game, with one violation for each
change that was skipped. -/
theorem Game.IsDefined.unwinds_revert {game : Game} (hgame : game.IsDefined) {board : Board}
    (hboard : board.Fits game) (subturns : List Subturn) :
    (∃ last, Reverting.Unwinds game (placedChanges subturns).reverse ⟨board, #[]⟩ last ∧
      board.revert game subturns = (last.board.settle, last.violations.toList)) ∧
    board.SameShape (board.revert game subturns).1 ∧ (board.revert game subturns).1.Fits game ∧
      (board.revert game subturns).1.IsStill := by
  exact ⟨⟨_, Reverting.unwinds_foldl hgame.isLayered hboard _, rfl⟩,
    Board.sameShape_revert game subturns board, hboard.revert subturns,
    Board.isStill_revert game subturns board⟩

/-- In the corridor two subturns of two firings each are taken back that are not of it: only the
first of their changes, the floor that went, is inverted, and last of all. -/
theorem unwinds_revert_corridor :
    let subturns : List Subturn := [
      ⟨[⟨1, .up, ⟨0, 0⟩, [⟨⟨0, 0⟩, [⟨⟨1⟩, .destroy⟩]⟩]⟩,
        ⟨1, .up, ⟨1, 0⟩, [⟨⟨1, 0⟩, [⟨⟨0⟩, .create⟩]⟩]⟩]⟩,
      ⟨[⟨2, .up, ⟨0, 0⟩, [⟨⟨-1, 0⟩, [⟨⟨0⟩, .appear⟩]⟩]⟩,
        ⟨3, .up, ⟨0, 0⟩, [⟨⟨0, 0⟩, [⟨⟨7⟩, .stationary⟩, ⟨⟨0⟩, .disappear⟩, ⟨⟨0⟩, .move .action⟩]⟩,
          ⟨⟨0, -1⟩, [⟨⟨1⟩, .create⟩]⟩]⟩]⟩]
    let violations : List Violation := [.outOfBounds ⟨0, -1⟩, .layerOccupied ⟨0⟩ ⟨0⟩ ⟨0, 0⟩,
      .unknownObject ⟨7⟩, .outOfBounds ⟨-1, 0⟩, .missingOccupant ⟨0⟩ ⟨1, 0⟩]
    ∃ (game : Game) (board : Board), game.IsDefined ∧ board.Fits game ∧
      (board.revert game subturns).2 = violations ∧
      ((board.revert game subturns).1.cell? ⟨0, 0⟩).map Cell.objects = some [⟨1⟩, ⟨0⟩] ∧
      (∃ last, Reverting.Unwinds game (placedChanges subturns).reverse ⟨board, #[]⟩ last ∧
        board.revert game subturns = (last.board.settle, last.violations.toList)) ∧
      (board.revert game subturns).1.Fits game := by
  intro subturns violations
  have hread : (Session.readGame corridor).yields .empty (fun game ↦
      (game.level? 0).any fun board ↦ decide ((board.revert game subturns).2 = violations ∧
        ((board.revert game subturns).1.cell? ⟨0, 0⟩).map Cell.objects = some [⟨1⟩, ⟨0⟩])) =
          true := by
    decide +kernel
  obtain ⟨game, board, hgame, hboard, -, htest⟩ := Session.exists_of_yields hread
  obtain ⟨hviolations, hobjects⟩ := decide_eq_true_iff.mp htest
  obtain ⟨hunwinds, -, hfits, -⟩ := hgame.unwinds_revert hboard subturns
  exact ⟨game, board, hgame, hboard, hviolations, hobjects, hunwinds, hfits⟩

end TilePuzzle
