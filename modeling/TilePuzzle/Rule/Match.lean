import TilePuzzle.Board
import TilePuzzle.Rule

/-!
# Matching

A rule matches at an origin when each of its cells matches the board cell that many steps along its
direction. Matching a cell binds every requirement to the lowest occupant that meets it; two
requirements may be bound to the same occupant.
-/

namespace TilePuzzle

/-- The object that meets a requirement, with its layer. -/
structure Binding where
  layer : LayerId
  object : ObjectId
deriving DecidableEq, Inhabited

/-- Whether some occupant is forbidden. -/
def Exclusion.forbids (exclusion : Exclusion) (occupant : Occupant) : Bool :=
  exclusion.objects.contains occupant.object && exclusion.test.accepts occupant.movement

/-- Whether an occupant meets a requirement. -/
def Requirement.isMetBy (requirement : Requirement) (occupant : Occupant) : Bool :=
  requirement.objects.contains occupant.object && requirement.test.accepts occupant.movement

/-- The lowest occupant that meets a requirement. -/
def Requirement.bind? (requirement : Requirement) (occupants : List (LayerId × Occupant)) :
    Option Binding :=
  (occupants.find? fun (_, occupant) ↦ requirement.isMetBy occupant).map
    fun (layer, occupant) ↦ ⟨layer, occupant.object⟩

/-- The bindings of the requirements if a board cell matches. -/
def RuleCell.match? (pattern : RuleCell) (cell : Cell) : Option (List Binding) :=
  let occupants := cell.occupants
  if pattern.exclusions.any fun exclusion ↦ occupants.any fun (_, occupant) ↦
      exclusion.forbids occupant then
    none
  else
    pattern.requirements.mapM fun requirement ↦ requirement.bind? occupants

/-- The bindings of a row of rule cells that starts at a position. -/
def matchCells (board : Board) (direction : Direction) :
    List RuleCell → Position → Option (List (List Binding))
  | [], _ => some []
  | pattern :: patterns, position => do
    let cell ← board.cell? position
    let bindings ← pattern.match? cell
    let rest ← matchCells board direction patterns (position.step direction)
    return bindings :: rest

/-- The bindings of a rule, cell by cell, if it matches with its first cell at an origin. -/
def Rule.match? (rule : Rule) (board : Board) (origin : Position) : Option (List (List Binding)) :=
  matchCells board rule.direction rule.cells origin

end TilePuzzle
