import TilePuzzle.Board
import TilePuzzle.Text

/-!
# Win conditions

A win condition speaks of the cells that hold some member of a *subject* set, and asks whether they
also hold some member of a *target* set: all of them, none, or at least one. A condition without a
target asks of the subject cells alone. A level is won when it has conditions and all are satisfied.
-/

namespace TilePuzzle

/-- How many of the subject cells must be on target. -/
inductive Quantifier
  | all
  | no
  | any
deriving DecidableEq, Inhabited

namespace Quantifier

/-- The words that denote the quantifiers. -/
def vocabulary : List (Quantifier × String) :=
  [(all, "all"), (no, "no"), (any, "some"), (any, "any")]

/-- Reads a quantifier word, in any ASCII case. -/
def ofWord? (word : String) : Option Quantifier :=
  (Text.readWord? vocabulary Prod.snd word).map Prod.fst

end Quantifier

/-- A condition on a whole board. -/
structure WinCondition where
  /-- The line of the document that the condition was written on. -/
  line : Nat
  quantifier : Quantifier
  subject : ObjectSet
  target : Option ObjectSet
deriving DecidableEq

namespace WinCondition

/-- Whether a cell meets the target; without a target every cell does. -/
def onTarget (condition : WinCondition) (cell : Cell) : Bool :=
  match condition.target with
  | none => true
  | some target => cell.holdsAny target

/-- Whether the condition is satisfied on a board. -/
def isSatisfied (condition : WinCondition) (board : Board) : Bool :=
  let subjects := board.cells.toList.filter fun cell ↦ cell.holdsAny condition.subject
  match condition.quantifier with
  | .all => subjects.all condition.onTarget
  | .no => !subjects.any condition.onTarget
  | .any => subjects.any condition.onTarget

/-- Whether there are conditions and a board satisfies them all. -/
def allSatisfied (conditions : List WinCondition) (board : Board) : Bool :=
  !conditions.isEmpty && conditions.all fun condition ↦ condition.isSatisfied board

end WinCondition

end TilePuzzle
