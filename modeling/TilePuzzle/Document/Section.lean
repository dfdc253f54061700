import TilePuzzle.Text

/-!
# Section names

A document is divided by headers, each a section name on a line of its own. What stands above the
first header is the prelude, which has no name.
-/

namespace TilePuzzle

/-- The name of a section. -/
inductive SectionName
  | objects
  | legend
  | sounds
  | collisionLayers
  | rules
  | winConditions
  | levels
deriving DecidableEq, Inhabited

namespace SectionName

/-- Every section name. -/
def all : List SectionName :=
  [objects, legend, sounds, collisionLayers, rules, winConditions, levels]

/-- The header of the section. -/
def word : SectionName → String
  | objects => "OBJECTS"
  | legend => "LEGEND"
  | sounds => "SOUNDS"
  | collisionLayers => "COLLISIONLAYERS"
  | rules => "RULES"
  | winConditions => "WINCONDITIONS"
  | levels => "LEVELS"

/-- Reads a header, in any ASCII case. -/
def ofWord? : String → Option SectionName := Text.readWord? all word

end SectionName

end TilePuzzle
