import TilePuzzle.Document.Line
import TilePuzzle.Document.RuleDeclaration
import TilePuzzle.Document.RuleDeclaration.Token

/-!
# Reading rule lines

A rule line is written as `+` and headings in any order, a pattern in brackets, an arrow, possibly a
second pattern, and commands. The word `no` and the movement words have their meaning only in front
of something else in the same cell; where nothing follows they are names. A movement symbol may be
glued to the word behind it.
-/

namespace TilePuzzle.RuleDeclaration

/-! ## Cells -/

/-- Splits off the movement symbol that a word begins with, once. -/
def splitSymbol (word : String) : List String :=
  match word.toList with
  | symbol :: c :: rest =>
    if symbol = '>' ∨ symbol = '<' ∨ symbol = '^' then
      [.ofList [symbol], .ofList (c :: rest)]
    else
      [word]
  | _ => [word]

/-- The movement that a word gives to the words behind it, if there are any. -/
def movementBefore? (word : String) (rest : List String) : Option MovementWord :=
  if rest.isEmpty then none else MovementWord.ofWord? word

/-- Reads the words of a cell. The term being read is negated or has a movement so far as told, and
`terms` holds those before it, the latest first. -/
def readTerms : Bool → Option MovementWord → List PatternTerm → List String → CellPattern
  | _, _, terms, [] => terms.reverse
  | negated, some movement, terms, word :: rest =>
    readTerms false none (⟨negated, some movement, word⟩ :: terms) rest
  | negated, none, terms, word :: rest =>
    if !negated && !rest.isEmpty && Text.sameWord "no" word then
      readTerms true none terms rest
    else
      match movementBefore? word rest with
      | some movement => readTerms negated (some movement) terms rest
      | none => readTerms false none (⟨negated, none, word⟩ :: terms) rest

/-- Reads the words of a cell. -/
def readCell (words : List String) : CellPattern := readTerms false none [] words

/-! ## Parts of a rule -/

/-- Reads what stands in front of the first pattern; `headings` holds the headings so far, the
latest first. -/
def readFront : Bool → List Heading → List Token →
    Except SyntaxFault (Bool × List Heading × List Token)
  | joins, headings, .word word :: tokens =>
    if word = "+" then
      readFront true headings tokens
    else
      match Heading.ofWord? word with
      | none => .error (.unknownRuleHeading word)
      | some heading => readFront joins (heading :: headings) tokens
  | joins, headings, tokens => .ok (joins, headings.reverse, tokens)

/-- Reads the bracket that opens the first pattern. -/
def readOpening : List Token → Except SyntaxFault (List Token)
  | .opening :: tokens => .ok tokens
  | [] => .error .missingPattern
  | .arrow :: _ => .error .missingPattern
  | token :: _ => .error (.unexpectedToken token.text)

/-- Reads a pattern up to its closing bracket. The words of the cell being read and the cells before
it are listed the latest first. -/
def readPattern : List String → List CellPattern → List Token →
    Except SyntaxFault (List CellPattern × List Token)
  | words, cells, .word word :: tokens =>
    readPattern ((splitSymbol word).reverse ++ words) cells tokens
  | words, cells, .bar :: tokens => readPattern [] (readCell words.reverse :: cells) tokens
  | words, cells, .closing :: tokens => .ok ((readCell words.reverse :: cells).reverse, tokens)
  | _, _, _ => .error .unterminatedPattern

/-- Reads the arrow between the patterns. -/
def readArrow : List Token → Except SyntaxFault (List Token)
  | .arrow :: tokens => .ok tokens
  | .opening :: _ => .error .multiplePatterns
  | [] => .error .missingArrow
  | .word _ :: _ => .error .missingArrow
  | token :: _ => .error (.unexpectedToken token.text)

/-- Reads the second pattern if there is one. -/
def readRight : List Token → Except SyntaxFault (Option (List CellPattern) × List Token)
  | .opening :: tokens => do
    let (cells, tokens) ← readPattern [] [] tokens
    return (some cells, tokens)
  | tokens => .ok (none, tokens)

/-- Reads one of the commands at the end. -/
def readCommand : Token → Except SyntaxFault RuleCommand
  | .word word =>
    match RuleCommand.ofWord? word with
    | none => .error (.unknownCommand word)
    | some command => .ok command
  | .opening => .error .multiplePatterns
  | token => .error (.unexpectedToken token.text)

/-! ## Rules -/

/-- Reads the tokens of the rule on a given line. -/
def ofTokens (line : Nat) (tokens : List Token) : Except SyntaxFault RuleDeclaration := do
  let (joinsPrevious, headings, tokens) ← readFront false [] tokens
  let tokens ← readOpening tokens
  let (left, tokens) ← readPattern [] [] tokens
  let tokens ← readArrow tokens
  let (right, tokens) ← readRight tokens
  let commands ← tokens.mapM readCommand
  return { line, joinsPrevious, headings, left, right, commands }

/-- Reads a rule line. -/
def ofLine (line : Line) : Except SyntaxError RuleDeclaration :=
  (ofTokens line.number (Token.ofText line.text)).mapError fun fault ↦ ⟨line.number, fault⟩

end TilePuzzle.RuleDeclaration
