import Std.Data.TreeMap.Basic
import TilePuzzle.Board
import TilePuzzle.Color
import TilePuzzle.Rule
import TilePuzzle.WinCondition

/-!
# Games

A game is all that is needed to play: the objects, what each name denotes, the rule groups, the win
conditions and the levels as they start. Boards refer to objects by number only, so one game serves
any number of boards.

Names form one space without regard to ASCII case: `legend` maps the folded name to what it denotes,
and the names of the objects are among its keys.
-/

namespace TilePuzzle

/-! ## Parts of a game -/

/-- The settings in front of the first section. -/
structure Settings where
  title : Option String
  author : Option String
  homepage : Option String
  /-- Undo requests are refused. -/
  noUndo : Bool
  /-- Restart requests are refused. -/
  noRestart : Bool
  /-- A turn without input runs whenever a level starts. -/
  rulesOnLevelStart : Bool
  /-- Settings without a meaning to the game itself. -/
  extra : Std.TreeMap String String
deriving Inhabited

/-- What a name denotes. -/
inductive Meaning
  /-- One object. -/
  | object (id : ObjectId)
  /-- Any one object of a set. -/
  | property (members : ObjectSet)
  /-- All the objects of a list together. -/
  | aggregate (members : List ObjectId)
deriving DecidableEq, Inhabited

namespace Meaning

/-- Every object that the name may stand for. -/
def objects : Meaning → ObjectSet
  | object id => .single id
  | property members => members
  | aggregate members => .ofList members

end Meaning

/-- What each folded name denotes. -/
abbrev Legend := Std.TreeMap String Meaning

/-- What a name denotes, in any ASCII case. -/
def Legend.lookup? (legend : Legend) (name : String) : Option Meaning := legend[Text.fold name]?

/-- A declared object. -/
structure Template where
  id : ObjectId
  /-- The name as it was declared. -/
  identifier : String
  layer : LayerId
  /-- The other names that denote just this object. -/
  aliases : List String
  appearance : Appearance
deriving DecidableEq, Inhabited

/-! ## Games -/

/-- Everything that is needed to play. -/
structure Game where
  settings : Settings
  /-- The objects by number. -/
  objects : Array Template
  layerCount : Nat
  legend : Legend
  /-- The objects that carry out the player's input. -/
  player : ObjectSet
  groups : List RuleGroup
  winConditions : List WinCondition
  /-- The boards as the levels start. -/
  levels : Array Board
deriving Inhabited

namespace Game

/-- The object of a given number. -/
def template? (game : Game) (id : ObjectId) : Option Template := game.objects[id.index]?

/-- The declared name of an object. -/
def identifier? (game : Game) (id : ObjectId) : Option String :=
  (game.template? id).map Template.identifier

/-- The object declared under a name, in any ASCII case. -/
def objectNamed? (game : Game) (name : String) : Option Template :=
  game.objects.find? fun template ↦ Text.sameWord template.identifier name

/-- The number of levels. -/
def levelCount (game : Game) : Nat := game.levels.size

/-- A level as it starts. -/
def level? (game : Game) (index : Nat) : Option Board := game.levels[index]?

/-- The number of rules, each direction counted. -/
def ruleCount (game : Game) : Nat := (game.groups.flatMap RuleGroup.rules).length

/-- Whether a board is won by the game's conditions. -/
def isWon (game : Game) (board : Board) : Bool := WinCondition.allSatisfied game.winConditions board

end Game

end TilePuzzle
