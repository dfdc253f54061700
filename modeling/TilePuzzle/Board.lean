import TilePuzzle.Grid
import TilePuzzle.ObjectSet

/-!
# Boards

A board is a rectangle of cells, and a cell has one slot per collision layer, the bottom layer
first. A slot holds at most one *occupant*: an object together with the movement it intends to make
during the current turn.

A layer above the number of slots holds nothing and ignores what is put there; a position off the
board has no cell. So every edit below is total, and an edit out of range changes nothing.
-/

namespace TilePuzzle

/-- An object in a slot, with what it intends to do. -/
structure Occupant where
  object : ObjectId
  /-- The intent during the current turn; there is none between turns. -/
  movement : Option Movement
deriving DecidableEq, Inhabited

namespace Occupant

/-- An object that intends nothing. -/
def still (object : ObjectId) : Occupant := ⟨object, none⟩

end Occupant

/-! ## Cells -/

/-- One cell: a slot per layer, the bottom layer first. -/
structure Cell where
  slots : List (Option Occupant)
deriving DecidableEq, Inhabited

namespace Cell

/-- A cell with empty slots. -/
def blank (layerCount : Nat) : Cell := ⟨.replicate layerCount none⟩

/-- The occupant of a layer. -/
def occupant? (cell : Cell) (layer : LayerId) : Option Occupant := cell.slots[layer.index]?.join

/-- Writes a slot. -/
def setSlot (cell : Cell) (layer : LayerId) (slot : Option Occupant) : Cell :=
  ⟨cell.slots.set layer.index slot⟩

/-- Puts an occupant on a layer, in place of the one there. -/
def put (cell : Cell) (layer : LayerId) (occupant : Occupant) : Cell :=
  cell.setSlot layer (some occupant)

/-- Empties a layer. -/
def take (cell : Cell) (layer : LayerId) : Cell := cell.setSlot layer none

/-- Writes the intent of the occupant of a layer, if there is one. -/
def setMovement (cell : Cell) (layer : LayerId) (movement : Option Movement) : Cell :=
  match cell.occupant? layer with
  | none => cell
  | some occupant => cell.put layer { occupant with movement }

/-- The occupants with their layers, from the bottom up. -/
def occupants (cell : Cell) : List (LayerId × Occupant) :=
  cell.slots.zipIdx.filterMap fun (slot, i) ↦ slot.map fun occupant ↦ (.ofIndex i, occupant)

/-- The objects in the cell, from the bottom up. -/
def objects (cell : Cell) : List ObjectId := cell.occupants.map fun (_, occupant) ↦ occupant.object

/-- Whether an object is in the cell. -/
def holds (cell : Cell) (object : ObjectId) : Bool := cell.objects.contains object

/-- Whether some member of a set is in the cell. -/
def holdsAny (cell : Cell) (set : ObjectSet) : Bool := cell.objects.any set.contains

/-- Whether every slot is empty. -/
def isEmpty (cell : Cell) : Bool := cell.slots.all Option.isNone

/-- Changes every occupant. -/
def mapOccupants (f : Occupant → Occupant) (cell : Cell) : Cell := ⟨cell.slots.map (·.map f)⟩

/-- Takes every intent away. -/
def settle (cell : Cell) : Cell := cell.mapOccupants fun occupant ↦ .still occupant.object

/-- Gives the members of a set a common intent. -/
def mark (set : ObjectSet) (movement : Movement) (cell : Cell) : Cell :=
  cell.mapOccupants fun occupant ↦
    if set.contains occupant.object then { occupant with movement := some movement } else occupant

end Cell

/-! ## Boards -/

/-- A rectangle of cells, row by row. -/
structure Board where
  /-- Which of the game's levels the board belongs to. -/
  index : Nat
  width : Nat
  height : Nat
  cells : Array Cell
  size_cells : cells.size = width * height
deriving DecidableEq

namespace Board

/-- A board of empty cells. -/
def blank (index width height layerCount : Nat) : Board where
  index
  width
  height
  cells := .replicate (width * height) (.blank layerCount)
  size_cells := Array.size_replicate

instance : Inhabited Board := ⟨blank 0 0 0 0⟩

/-- Whether a position is on the board. -/
def contains (board : Board) (p : Position) : Bool :=
  0 ≤ p.x && 0 ≤ p.y && p.x < board.width && p.y < board.height

/-- The place of a position of the board in the list of cells. -/
def place (board : Board) (p : Position) : Nat := p.y.toNat * board.width + p.x.toNat

/-- The cell at a position of the board. -/
def cell? (board : Board) (p : Position) : Option Cell :=
  if board.contains p then board.cells[board.place p]? else none

/-- Replaces the cell at a position of the board. -/
def setCell (board : Board) (p : Position) (cell : Cell) : Board :=
  if board.contains p then
    { board with
      cells := board.cells.setIfInBounds (board.place p) cell
      size_cells := by rw [Array.size_setIfInBounds, board.size_cells] }
  else
    board

/-- Changes every cell. -/
def mapCells (f : Cell → Cell) (board : Board) : Board :=
  { board with
    cells := board.cells.map f
    size_cells := by rw [Array.size_map, board.size_cells] }

/-- The positions of the board, row by row from the top left. -/
def positions (board : Board) : List Position :=
  (List.range (board.width * board.height)).map fun (i : Nat) ↦
    ⟨(i % board.width : Nat), (i / board.width : Nat)⟩

/-- The cells with their positions, row by row from the top left. -/
def placedCells (board : Board) : List (Position × Cell) :=
  board.positions.zip board.cells.toList

/-- The number of cells that hold an object. -/
def count (board : Board) (object : ObjectId) : Nat :=
  board.cells.countP fun cell ↦ cell.holds object

/-- Takes every intent away. -/
def settle (board : Board) : Board := board.mapCells .settle

/-- Gives the members of a set a common intent. -/
def mark (board : Board) (set : ObjectSet) (movement : Movement) : Board :=
  board.mapCells (.mark set movement)

end Board

end TilePuzzle
