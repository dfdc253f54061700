import TilePuzzle.Session

/-!
# Views for a host

A host that draws a game knows objects by name. A *snapshot* lists the names in every cell of a
board, and the *view* of a turn lists its changes with the names of their objects; a change of
an object that the game does not know is left out.
-/

namespace TilePuzzle

/-! ## Snapshots -/

/-- The names of the objects at one position, from the bottom up. -/
structure CellView where
  position : Position
  objects : List String
deriving DecidableEq, Inhabited

namespace CellView

/-- Whether an object of a given name is there, in any ASCII case. -/
def has (cell : CellView) (name : String) : Bool := cell.objects.any (Text.sameWord name)

end CellView

/-- A board as a host sees it. -/
structure Snapshot where
  index : Nat
  width : Nat
  height : Nat
  /-- The cells row by row from the top left. -/
  cells : List CellView
deriving DecidableEq, Inhabited

namespace Snapshot

/-- The names of the objects of a cell. -/
def namesIn (game : Game) (cell : Cell) : List String := cell.objects.filterMap game.identifier?

/-- The snapshot of a board. -/
def ofBoard (game : Game) (board : Board) : Snapshot where
  index := board.index
  width := board.width
  height := board.height
  cells := board.placedCells.map fun (position, cell) ↦ ⟨position, namesIn game cell⟩

/-- What is at a position. -/
def cell? (snapshot : Snapshot) (position : Position) : Option CellView :=
  snapshot.cells.find? fun cell ↦ cell.position = position

/-- Whether an object of a given name is at a position. -/
def has (snapshot : Snapshot) (position : Position) (name : String) : Bool :=
  (snapshot.cell? position).any fun cell ↦ cell.has name

/-- The positions of the objects of a given name, row by row. -/
def find (snapshot : Snapshot) (name : String) : List Position :=
  (snapshot.cells.filter fun cell ↦ cell.has name).map CellView.position

end Snapshot

/-! ## Turns by name -/

/-- A change of an object that is known by name. -/
structure ChangeView where
  object : String
  /-- The word for the kind of change. -/
  kind : String
  /-- The intent that was given, if it is that kind of change. -/
  movement : Option Movement
deriving DecidableEq, Inhabited

/-- The changes of a cell. -/
structure ChangedCellView where
  position : Position
  changes : List ChangeView
deriving DecidableEq, Inhabited

/-- The changes of one rule firing. -/
structure FiringView where
  line : Nat
  direction : Direction
  origin : Position
  cells : List ChangedCellView
deriving DecidableEq, Inhabited

/-- The firings of one rule group. -/
structure SubturnView where
  firings : List FiringView
deriving DecidableEq, Inhabited

namespace Game

/-- The view of a change, if the object is known. -/
def viewChange? (game : Game) (change : Change) : Option ChangeView :=
  (game.identifier? change.object).map fun object ↦
    ⟨object, change.kind.word, change.kind.movement?⟩

/-- The view of a firing. -/
def viewFiring (game : Game) (firing : Firing) : FiringView where
  line := firing.line
  direction := firing.direction
  origin := firing.origin
  cells := firing.cells.map fun cell ↦
    ⟨cell.position, cell.changes.filterMap game.viewChange?⟩

/-- The view of some subturns. -/
def viewTurn (game : Game) (subturns : List Subturn) : List SubturnView :=
  subturns.map fun subturn ↦ ⟨subturn.firings.map game.viewFiring⟩

end Game

/-! ## Views of a session -/

namespace Session

/-- The snapshot of the level being played. -/
def snapshot? (session : Session) : Option Snapshot := do
  let loaded ← session.loaded
  let play ← loaded.play
  return .ofBoard loaded.game play.board

/-- The view of the latest turn. -/
def turnView (session : Session) : List SubturnView :=
  match session.loaded with
  | none => []
  | some loaded => loaded.game.viewTurn session.subturns

end Session

end TilePuzzle
