import TilePuzzle.Grid
import TilePuzzle.ObjectSet

/-!
# Rewriting rules

A rule is a row of *rule cells* laid along its direction from an origin. Each rule cell says what a
board cell must hold and must not hold, and what becomes of it: every required object is kept or
removed, some sets are cleared, and some objects are spawned. Rules are collected in groups, which
are applied until nothing changes any more.
-/

namespace TilePuzzle

/-! ## Conditions -/

/-- What a rule asks of the intent of an object. -/
inductive MovementTest
  | any
  | still
  | exactly (movement : Movement)
deriving DecidableEq, Inhabited

namespace MovementTest

/-- Whether an intent passes. -/
def accepts (test : MovementTest) (movement : Option Movement) : Bool :=
  match test with
  | any => true
  | still => movement.isNone
  | exactly expected => movement == some expected

/-- Whether some intent fails. -/
def isConstrained : MovementTest → Bool
  | any => false
  | still => true
  | exactly _ => true

end MovementTest

/-! ## Effects -/

/-- What becomes of the intent of an object that is kept. -/
inductive IntentWrite
  | unchanged
  | clear
  | set (movement : Movement)
deriving DecidableEq, Inhabited

/-- What becomes of an object that a rule required. -/
inductive Fate
  | keep (write : IntentWrite)
  | remove
deriving DecidableEq, Inhabited

/-! ## Rule cells -/

/-- Some object of a set must be in the cell; the one found has a fate. -/
structure Requirement where
  objects : ObjectSet
  test : MovementTest
  fate : Fate
deriving DecidableEq

/-- No object of a set may be in the cell. -/
structure Exclusion where
  objects : ObjectSet
  test : MovementTest
deriving DecidableEq

/-- An object that is put into the cell, with the intent it is given. -/
structure Spawn where
  object : ObjectId
  movement : Option Movement
deriving DecidableEq

/-- The conditions on one cell and what becomes of it. -/
structure RuleCell where
  requirements : List Requirement
  exclusions : List Exclusion
  /-- Sets whose members are taken out of the cell. -/
  clears : List ObjectSet
  spawns : List Spawn
deriving DecidableEq, Inhabited

/-! ## Rules and groups -/

/-- What a rule orders besides its rewriting. -/
structure Commands where
  /-- Undo the whole turn. -/
  cancel : Bool
  /-- Win the level when the turn is over. -/
  win : Bool
deriving DecidableEq, Inhabited

/-- A rule in one direction. -/
structure Rule where
  /-- The line of the document that the rule was written on. -/
  line : Nat
  direction : Direction
  cells : List RuleCell
  commands : Commands
deriving DecidableEq, Inhabited

/-- Rules that are applied together until none changes the board. -/
structure RuleGroup where
  rules : List Rule
deriving DecidableEq, Inhabited

end TilePuzzle
