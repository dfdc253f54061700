import TilePuzzle.Text

/-!
# The grid: directions, movements, positions

Row 0 is the top row and `y` grows downwards, so going up lowers `y`. A *movement* is what an
object on the board intends to do during a turn and also what a player may ask for: to go in one of
the four directions, or the undirected *action*.

Directions have one fixed order — up, down, left, right — which is the order in which a rule is
expanded and tried.
-/

namespace TilePuzzle

/-! ## Directions -/

/-- One of the four directions of the grid. -/
inductive Direction
  | up
  | down
  | left
  | right
deriving DecidableEq, Inhabited

namespace Direction

/-- Every direction, in the order in which rules are expanded. -/
def all : List Direction := [up, down, left, right]

/-- The word that denotes the direction. -/
def word : Direction → String
  | up => "up"
  | down => "down"
  | left => "left"
  | right => "right"

/-- Reads a direction word, in any ASCII case. -/
def ofWord? : String → Option Direction := Text.readWord? all word

/-- The change of `x` in one step. -/
def dx : Direction → Int
  | up => 0
  | down => 0
  | left => -1
  | right => 1

/-- The change of `y` in one step. -/
def dy : Direction → Int
  | up => -1
  | down => 1
  | left => 0
  | right => 0

/-- The direction of the step back. -/
def opposite : Direction → Direction
  | up => down
  | down => up
  | left => right
  | right => left

/-- A quarter turn counter-clockwise. -/
def turnLeft : Direction → Direction
  | up => left
  | left => down
  | down => right
  | right => up

/-- A quarter turn clockwise. -/
def turnRight (d : Direction) : Direction := d.turnLeft.opposite

end Direction

/-! ## Sets of directions -/

/-- A set of directions, one flag each. -/
structure DirectionSet where
  up : Bool
  down : Bool
  left : Bool
  right : Bool
deriving DecidableEq, Inhabited

namespace DirectionSet

/-- No direction. -/
def empty : DirectionSet := ⟨false, false, false, false⟩

/-- Up and down. -/
def vertical : DirectionSet := ⟨true, true, false, false⟩

/-- Left and right. -/
def horizontal : DirectionSet := ⟨false, false, true, true⟩

/-- All four directions. -/
def orthogonal : DirectionSet := ⟨true, true, true, true⟩

/-- Whether a direction is in the set. -/
def contains (s : DirectionSet) : Direction → Bool
  | .up => s.up
  | .down => s.down
  | .left => s.left
  | .right => s.right

/-- The set of one direction. -/
def single (d : Direction) : DirectionSet :=
  ⟨d == .up, d == .down, d == .left, d == .right⟩

/-- The directions in either set. -/
def union (s t : DirectionSet) : DirectionSet :=
  ⟨s.up || t.up, s.down || t.down, s.left || t.left, s.right || t.right⟩

/-- The members, in the order in which rules are expanded. -/
def toList (s : DirectionSet) : List Direction := Direction.all.filter s.contains

/-- The set as a number: 1 for up, 2 for down, 4 for left and 8 for right. -/
def bits (s : DirectionSet) : Nat :=
  s.up.toNat + 2 * s.down.toNat + 4 * s.left.toNat + 8 * s.right.toNat

end DirectionSet

/-! ## Movements -/

/-- What an object intends to do, or what a player asks for. -/
inductive Movement
  /-- To go one step in a direction. -/
  | toward (d : Direction)
  /-- The undirected action. -/
  | action
deriving DecidableEq, Inhabited

namespace Movement

/-- Every movement: the four directions, then the action. -/
def all : List Movement := Direction.all.map toward ++ [action]

/-- The word that denotes the movement. -/
def word : Movement → String
  | toward d => d.word
  | action => "action"

/-- Reads a movement word, in any ASCII case. -/
def ofWord? : String → Option Movement := Text.readWord? all word

/-- The direction of the movement; the action has none. -/
def direction? : Movement → Option Direction
  | toward d => some d
  | action => none

end Movement

/-! ## Positions -/

/-- A position of the grid, on a board or not. -/
structure Position where
  x : Int
  y : Int
deriving DecidableEq, Inhabited

namespace Position

/-- The position one step further in a direction. -/
def step (p : Position) (d : Direction) : Position := ⟨p.x + d.dx, p.y + d.dy⟩

/-- The position `n` steps further in a direction; a negative count walks backwards. -/
def offset (p : Position) (d : Direction) (n : Int) : Position :=
  ⟨p.x + d.dx * n, p.y + d.dy * n⟩

/-- The position as written in messages. -/
def text (p : Position) : String := s!"({p.x}, {p.y})"

@[simp] theorem offset_zero (p : Position) (d : Direction) : p.offset d 0 = p := by
  cases p; simp [offset]

theorem offset_step (p : Position) (d : Direction) (n : Int) :
    (p.step d).offset d n = p.offset d (n + 1) := by
  simp only [offset, step, Position.mk.injEq]
  constructor <;> grind

end Position

end TilePuzzle
