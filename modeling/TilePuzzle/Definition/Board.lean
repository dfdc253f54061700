import TilePuzzle.Definition.SymbolTable
import TilePuzzle.Document.Drawing

/-!
# From drawings to boards

Every character of a drawing is a name. What it denotes is put into the cell, each object on its own
layer; two different objects cannot share a layer. A property does not say which object is meant and
cannot be drawn. In the end the object named `background` is put wherever its layer is empty.
-/

namespace TilePuzzle.Board

/-! ## One cell -/

/-- Puts an object into a cell where a symbol on a given line asks for it. -/
def drawObject (objects : Array Template) (line : Nat) (symbol : String) (cell : Cell)
    (id : ObjectId) : Except DefinitionError Cell :=
  match objects[id.index]? with
  | none => .ok cell
  | some template =>
    match cell.occupant? template.layer with
    | none => .ok (cell.put template.layer (.still id))
    | some occupant =>
      if occupant.object = id then .ok cell
      else .error (.levelLayerConflict line symbol template.layer.index)

/-- The objects that a symbol on a given line puts into a cell. -/
def drawnObjects (legend : Legend) (line : Nat) (symbol : String) :
    Except DefinitionError (List ObjectId) := do
  match ← legend.resolve line symbol with
  | .object id => return [id]
  | .aggregate members => return members
  | .property _ => throw (.ambiguousLevelSymbol line symbol)

/-! ## Rows -/

/-- Draws the character in a given column of a row. -/
def drawSymbol (legend : Legend) (objects : Array Template) (line y : Nat) (board : Board) :
    Char × Nat → Except DefinitionError Board
  | (c, x) => do
    let symbol := String.ofList [c]
    let ids ← drawnObjects legend line symbol
    let position : Position := ⟨x, y⟩
    match board.cell? position with
    | none => return board
    | some cell =>
      let cell ← ids.foldlM (drawObject objects line symbol) cell
      return board.setCell position cell

/-- Draws the row in a given place of a level that begins on a given line. -/
def drawRow (legend : Legend) (objects : Array Template) (line : Nat) (board : Board) :
    String × Nat → Except DefinitionError Board
  | (row, y) => row.toList.zipIdx.foldlM (drawSymbol legend objects (line + y) y) board

/-! ## Boards -/

/-- Puts an object wherever its layer is empty. -/
def fill (template : Template) (board : Board) : Board :=
  board.mapCells fun cell ↦
    match cell.occupant? template.layer with
    | none => cell.put template.layer (.still template.id)
    | some _ => cell

/-- The object that fills the empty places of boards. -/
def background? (legend : Legend) (objects : Array Template) : Option Template :=
  match legend.lookup? "background" with
  | some (.object id) => objects[id.index]?
  | _ => none

/-- The board of the level drawn in a given place. -/
def ofDrawing (legend : Legend) (objects : Array Template) (layerCount : Nat) :
    Drawing × Nat → Except DefinitionError Board
  | (drawing, place) => do
    let rows := drawing.rows
    let width := (rows.head?.map String.length).getD 0
    match rows.findIdx? fun row ↦ row.length ≠ width with
    | some y => throw (.nonRectangularLevel (drawing.line + y))
    | none =>
      let board ← rows.zipIdx.foldlM (drawRow legend objects drawing.line)
        (blank place width rows.length layerCount)
      match background? legend objects with
      | none => return board
      | some template => return board.fill template

end TilePuzzle.Board
