import TilePuzzle.Change
import TilePuzzle.Game

/-!
# Taking a turn back

The changes of a turn are undone one by one, the latest first. A change that does not fit the board
— its object is unknown, its position is off the board, the object is not where it should be or its
slot is taken — is skipped and reported as a *violation*. Changes of intent need no inverse, since
no intent outlives a turn.
-/

namespace TilePuzzle

/-! ## Violations -/

/-- Why a change could not be taken back. -/
inductive Violation
  | unknownObject (object : ObjectId)
  | outOfBounds (position : Position)
  | missingOccupant (object : ObjectId) (position : Position)
  | layerOccupied (object occupant : ObjectId) (position : Position)
deriving DecidableEq, Inhabited

namespace Violation

/-- The violation in words. -/
def message : Violation → String
  | unknownObject object => s!"delta references unknown object {object.text}"
  | outOfBounds position => s!"delta position {position.text} is outside the level"
  | missingOccupant object position =>
    s!"object {object.text} expected at {position.text} is not there"
  | layerOccupied object occupant position =>
    s!"cannot restore object {object.text} at {position.text}: layer held by {occupant.text}"

end Violation

/-! ## One change -/

/-- Takes back a change in the cell where it was made. -/
def Cell.revert (cell : Cell) (layer : LayerId) (position : Position) (change : Change) :
    Except Violation Cell :=
  if change.kind.isPlacement then
    if (cell.occupant? layer).map Occupant.object = some change.object then
      .ok (cell.take layer)
    else
      .error (.missingOccupant change.object position)
  else if change.kind.isRemoval then
    match cell.occupant? layer with
    | some occupant => .error (.layerOccupied change.object occupant.object position)
    | none => .ok (cell.put layer (.still change.object))
  else
    .ok cell

/-- Takes back a change on a board. -/
def Board.revertChange (game : Game) (board : Board) (position : Position) (change : Change) :
    Except Violation Board :=
  match game.template? change.object, board.cell? position with
  | none, _ => .error (.unknownObject change.object)
  | some _, none => .error (.outOfBounds position)
  | some template, some cell =>
    (cell.revert template.layer position change).map (board.setCell position)

/-! ## Whole turns -/

/-- The changes of some subturns with their positions, in the order in which they were made. -/
def placedChanges (subturns : List Subturn) : List (Position × Change) :=
  subturns.flatMap fun subturn ↦ subturn.firings.flatMap fun firing ↦
    firing.cells.flatMap fun cell ↦ cell.changes.map fun change ↦ (cell.position, change)

/-- A board on which changes are being taken back, with the violations met so far. -/
structure Reverting where
  board : Board
  violations : Array Violation

/-- Takes back one more change, or reports why it cannot be. -/
def Reverting.step (game : Game) (state : Reverting) (change : Position × Change) : Reverting :=
  match state.board.revertChange game change.1 change.2 with
  | .ok board => { state with board }
  | .error violation => { state with violations := state.violations.push violation }

/-- Takes back some subturns, the latest change first: the board, free of intents, and the
violations in the order in which they were met. -/
def Board.revert (game : Game) (subturns : List Subturn) (board : Board) :
    Board × List Violation :=
  let final := (placedChanges subturns).reverse.foldl (Reverting.step game) ⟨board, #[]⟩
  (final.board.settle, final.violations.toList)

end TilePuzzle
