/-!
# Definition errors

What may be wrong with a document whose text is well formed: names that are missing or taken,
objects without a layer, rules that say nothing, levels that cannot be built. Each error carries the
line of the declaration at fault where there is one.
-/

namespace TilePuzzle

/-- Why a document defines no game. -/
inductive DefinitionError
  | duplicateName (line : Nat) (name : String)
  | undefinedName (line : Nat) (name : String)
  | propertyContainsAggregate (line : Nat) (symbol name : String)
  | aggregateContainsProperty (line : Nat) (symbol name : String)
  | tooManyObjects (max : Nat)
  | tooManyLayers (max : Nat)
  | multipleLayers (line : Nat) (name : String)
  | missingLayer (line : Nat) (name : String)
  | missingPlayer
  | ruleWithoutEffect (line : Nat)
  | cellCountMismatch (line left right : Nat)
  | unboundProperty (line : Nat) (name : String)
  | nonRectangularLevel (line : Nat)
  | ambiguousLevelSymbol (line : Nat) (symbol : String)
  | levelLayerConflict (line : Nat) (symbol : String) (layer : Nat)
deriving DecidableEq, Inhabited

namespace DefinitionError

/-- The error in words. -/
def message : DefinitionError → String
  | duplicateName line name => s!"line {line}: `{name}` is already defined"
  | undefinedName line name => s!"line {line}: `{name}` is not defined"
  | propertyContainsAggregate line symbol name =>
    s!"line {line}: property `{symbol}` cannot contain aggregate `{name}`"
  | aggregateContainsProperty line symbol name =>
    s!"line {line}: aggregate `{symbol}` cannot contain property `{name}`"
  | tooManyObjects max => s!"more than {max} objects"
  | tooManyLayers max => s!"more than {max} collision layers"
  | multipleLayers line name =>
    s!"line {line}: object `{name}` is listed in more than one collision layer"
  | missingLayer line name => s!"line {line}: object `{name}` has no collision layer"
  | missingPlayer => "no `player` object or property is defined"
  | ruleWithoutEffect line =>
    s!"line {line}: rule has neither a right-hand side nor a command"
  | cellCountMismatch line left right =>
    s!"line {line}: left side has {left} cells but right side has {right}"
  | unboundProperty line name =>
    s!"line {line}: property `{name}` on the right side is not bound on the left side"
  | nonRectangularLevel line => s!"line {line}: level rows have different widths"
  | ambiguousLevelSymbol line symbol =>
    s!"line {line}: `{symbol}` is a property and cannot be placed in a level"
  | levelLayerConflict line symbol layer =>
    s!"line {line}: `{symbol}` puts two objects on collision layer {layer}"

end DefinitionError

end TilePuzzle
