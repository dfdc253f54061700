import TilePuzzle.Document.Section

/-!
# Syntax errors

What may be wrong with the text of a document, each fault with the line that it was found on.
-/

namespace TilePuzzle

/-- What is wrong with a line. -/
inductive SyntaxFault
  | unclosedComment
  | unknownSection (text : String)
  | duplicateSection (name : SectionName)
  | malformedLegend
  | mixedLegendOperators
  | missingPattern
  | unterminatedPattern
  | missingArrow
  | multiplePatterns
  | unexpectedToken (text : String)
  | unknownRuleHeading (word : String)
  | unknownCommand (word : String)
  | unknownQuantifier (word : String)
  | malformedWinCondition
  | missingWinTarget
deriving DecidableEq, Inhabited

namespace SyntaxFault

/-- The fault in words. -/
def message : SyntaxFault → String
  | unclosedComment => "comment is never closed"
  | unknownSection text => s!"unknown section `{text}`"
  | duplicateSection name => s!"section {name.word} declared twice"
  | malformedLegend => "legend line needs the form `symbol = definition`"
  | mixedLegendOperators => "legend line mixes `and` and `or`"
  | missingPattern => "rule needs a `[` pattern"
  | unterminatedPattern => "pattern is not closed with `]`"
  | missingArrow => "rule is missing `->`"
  | multiplePatterns => "only one pattern is allowed on each side of a rule"
  | unexpectedToken text => s!"unexpected `{text}` in rule"
  | unknownRuleHeading word => s!"unknown rule prefix `{word}`"
  | unknownCommand word => s!"unknown rule command `{word}`"
  | unknownQuantifier word => s!"unknown win quantifier `{word}`"
  | malformedWinCondition => "win condition needs the form `quantifier name [on name]`"
  | missingWinTarget => "`all` win condition needs an `on` target"

end SyntaxFault

/-- A fault with its line, counted from one. -/
structure SyntaxError where
  line : Nat
  fault : SyntaxFault
deriving DecidableEq, Inhabited

namespace SyntaxError

/-- The error in words. -/
def message (error : SyntaxError) : String := s!"line {error.line}: {error.fault.message}"

end SyntaxError

end TilePuzzle
