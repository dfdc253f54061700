import TilePuzzle.Grid

/-!
# Rules as they are written

A rule line has a pattern on the left and mostly one on the right. A pattern is a row of cells, and
each cell lists terms: an object name, possibly with a movement word in front, possibly negated by
`no`. Movement words are absolute, or relative to the direction in which the rule is applied.
-/

namespace TilePuzzle

/-! ## Words in front of a rule -/

/-- The directions that a rule is to be applied in. -/
inductive Heading
  | toward (direction : Direction)
  | horizontal
  | vertical
  | orthogonal
deriving DecidableEq, Inhabited

namespace Heading

/-- Every heading. -/
def all : List Heading := Direction.all.map toward ++ [horizontal, vertical, orthogonal]

/-- The word that denotes the heading. -/
def word : Heading → String
  | toward direction => direction.word
  | horizontal => "horizontal"
  | vertical => "vertical"
  | orthogonal => "orthogonal"

/-- Reads a heading word, in any ASCII case. -/
def ofWord? : String → Option Heading := Text.readWord? all word

/-- The directions that the heading stands for. -/
def directions : Heading → DirectionSet
  | toward direction => .single direction
  | horizontal => .horizontal
  | vertical => .vertical
  | orthogonal => .orthogonal

end Heading

/-! ## Words in front of a name -/

/-- A direction as seen from the direction of the rule. -/
inductive Bearing
  | ahead
  | back
  | leftward
  | rightward
deriving DecidableEq, Inhabited

namespace Bearing

/-- Every bearing. -/
def all : List Bearing := [ahead, back, leftward, rightward]

/-- The symbol that denotes the bearing in a rule read along its direction. -/
def word : Bearing → String
  | ahead => ">"
  | back => "<"
  | leftward => "^"
  | rightward => "v"

/-- The direction that the bearing takes in a rule applied along a given direction. -/
def direction (bearing : Bearing) (along : Direction) : Direction :=
  match bearing with
  | ahead => along
  | back => along.opposite
  | leftward => along.turnLeft
  | rightward => along.turnRight

end Bearing

/-- A movement as it is written in a rule. -/
inductive MovementWord
  | relative (bearing : Bearing)
  | absolute (movement : Movement)
  | stationary
deriving DecidableEq, Inhabited

namespace MovementWord

/-- Every movement word. -/
def all : List MovementWord :=
  Bearing.all.map relative ++ Movement.all.map absolute ++ [stationary]

/-- How the movement is written. -/
def word : MovementWord → String
  | relative bearing => bearing.word
  | absolute movement => movement.word
  | stationary => "stationary"

/-- Reads a movement word, in any ASCII case. -/
def ofWord? : String → Option MovementWord := Text.readWord? all word

/-- The movement in a rule applied along a given direction; to be stationary is to have none. -/
def movement? (word : MovementWord) (along : Direction) : Option Movement :=
  match word with
  | relative bearing => some (.toward (bearing.direction along))
  | absolute movement => some movement
  | stationary => none

end MovementWord

/-! ## Words behind a rule -/

/-- An order given by a rule. -/
inductive RuleCommand
  | cancel
  | win
deriving DecidableEq, Inhabited

namespace RuleCommand

/-- Every command. -/
def all : List RuleCommand := [cancel, win]

/-- The word that denotes the command. -/
def word : RuleCommand → String
  | cancel => "cancel"
  | win => "win"

/-- Reads a command word, in any ASCII case. -/
def ofWord? : String → Option RuleCommand := Text.readWord? all word

end RuleCommand

/-! ## Patterns and rules -/

/-- A name in a pattern with what stands in front of it. -/
structure PatternTerm where
  negated : Bool
  movement : Option MovementWord
  name : String
deriving DecidableEq, Inhabited

/-- A cell of a pattern: its terms in order. -/
abbrev CellPattern := List PatternTerm

/-- A rule as it is written. -/
structure RuleDeclaration where
  line : Nat
  /-- Whether the rule belongs to the group of the rule before it. -/
  joinsPrevious : Bool
  headings : List Heading
  left : List CellPattern
  /-- The right pattern; a rule that only gives orders has none. -/
  right : Option (List CellPattern)
  commands : List RuleCommand
deriving DecidableEq, Inhabited

end TilePuzzle
