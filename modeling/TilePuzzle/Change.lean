import TilePuzzle.Grid
import TilePuzzle.ObjectSet

/-!
# The record of a turn

Everything that a turn does to a board is written down: a turn is a list of subturns, one for each
rule group that did something; a subturn is a list of rule firings; a firing lists the cells that it
changed; and a cell lists the changes of its objects in the order in which they were made.

An object that left one place and came to another within one firing *disappears* and *appears*;
otherwise it is *destroyed* or *created*.
-/

namespace TilePuzzle

/-! ## Changes of an object -/

/-- What happened to an object in a cell. -/
inductive ChangeKind
  | appear
  | disappear
  | create
  | destroy
  /-- It was given an intent. -/
  | move (movement : Movement)
  /-- Its intent was taken away. -/
  | stationary
deriving DecidableEq, Inhabited

namespace ChangeKind

/-- The word that denotes the kind of change. -/
def word : ChangeKind → String
  | appear => "appear"
  | disappear => "disappear"
  | create => "create"
  | destroy => "destroy"
  | move _ => "move"
  | stationary => "stationary"

/-- The intent that was given. -/
def movement? : ChangeKind → Option Movement
  | move movement => some movement
  | _ => none

/-- Whether the object came into the cell. -/
def isPlacement : ChangeKind → Bool
  | appear => true
  | create => true
  | _ => false

/-- Whether the object went out of the cell. -/
def isRemoval : ChangeKind → Bool
  | disappear => true
  | destroy => true
  | _ => false

/-- The kind once it is known whether the object both came and went. -/
def relabel (transferred : Bool) : ChangeKind → ChangeKind
  | appear => if transferred then appear else create
  | create => if transferred then appear else create
  | disappear => if transferred then disappear else destroy
  | destroy => if transferred then disappear else destroy
  | kind => kind

end ChangeKind

/-- A change of one object. -/
structure Change where
  object : ObjectId
  kind : ChangeKind
deriving DecidableEq, Inhabited

/-! ## Firings, subturns and turns -/

/-- The changes of one cell, in the order in which they were made. -/
structure CellChange where
  position : Position
  changes : List Change
deriving DecidableEq, Inhabited

/-- One application of a rule. -/
structure Firing where
  /-- The line of the document that the rule was written on. -/
  line : Nat
  direction : Direction
  /-- The position of the first cell of the rule. -/
  origin : Position
  cells : List CellChange
deriving DecidableEq, Inhabited

/-- The firings of one rule group. -/
structure Subturn where
  firings : List Firing
deriving DecidableEq, Inhabited

/-- One turn: what was asked for and what it caused. -/
structure TurnRecord where
  /-- The movement that the player asked for; a turn may run without one. -/
  input : Option Movement
  subturns : List Subturn
deriving DecidableEq, Inhabited

namespace TurnRecord

/-- Whether no rule fired. -/
def isEmpty (record : TurnRecord) : Bool :=
  record.subturns.all fun subturn ↦ subturn.firings.isEmpty

/-- The number of rule firings. -/
def firingCount (record : TurnRecord) : Nat :=
  (record.subturns.flatMap Subturn.firings).length

end TurnRecord

/-! ## Transfers -/

/-- Whether an object both came into a cell and went out of one. -/
def isTransferred (changes : List Change) (object : ObjectId) : Bool :=
  (changes.any fun change ↦ change.object == object && change.kind.isPlacement) &&
    (changes.any fun change ↦ change.object == object && change.kind.isRemoval)

/-- Tells objects that moved within one firing from those that were created or destroyed. -/
def labelTransfers (cells : List CellChange) : List CellChange :=
  let all := cells.flatMap CellChange.changes
  cells.map fun cell ↦
    { cell with
      changes := cell.changes.map fun change ↦
        { change with kind := change.kind.relabel (isTransferred all change.object) } }

end TilePuzzle
