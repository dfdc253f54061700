import TilePuzzle.Document.Line
import TilePuzzle.WinCondition

/-!
# Declarations of one line

Three parts of a document are read line by line, each line for itself.

## The prelude

Each line of the prelude is a setting: a key, which is filed in lower case, and what follows it.

## Collision layers

A collision layer is a list of names, separated by blanks or commas.

## Win conditions

A win condition is written as a quantifier and a name, with `on` and a second name if it has a
target. The quantifier `all` needs a target.
-/

namespace TilePuzzle

/-! ## Settings -/

/-- A setting in front of the first section. -/
structure Setting where
  line : Nat
  key : String
  value : Option String
deriving DecidableEq, Inhabited

namespace Setting

/-- Reads a setting: the key ends at the first blank. -/
def ofLine (line : Line) : Setting :=
  match Text.cutAt Text.isBlank line.text.toList with
  | (_, none) => ⟨line.number, Text.fold line.text, none⟩
  | (key, some value) =>
    ⟨line.number, Text.fold (.ofList key), some (.ofList (Text.trimChars value))⟩

end Setting

/-! ## Layer lines -/

/-- The names on one collision layer. -/
structure LayerDeclaration where
  line : Nat
  names : List String
deriving DecidableEq, Inhabited

namespace LayerDeclaration

/-- Whether a character separates names. -/
def isGap (c : Char) : Bool := c == ',' || Text.isBlank c

/-- Reads a layer line. -/
def ofLine (line : Line) : LayerDeclaration :=
  ⟨line.number, (Text.pieces isGap line.text.toList).map .ofList⟩

end LayerDeclaration

/-! ## Win condition lines -/

/-- A win condition as it is written. -/
structure WinDeclaration where
  line : Nat
  quantifier : Quantifier
  subject : String
  target : Option String
deriving DecidableEq, Inhabited

namespace WinDeclaration

/-- The three parts of a win condition. -/
def parts? : List String → Option (String × String × Option String)
  | [quantifier, subject] => some (quantifier, subject, none)
  | [quantifier, subject, on, target] =>
    if Text.sameWord "on" on then some (quantifier, subject, some target) else none
  | _ => none

/-- Reads the words of a win condition. -/
def read (words : List String) : Except SyntaxFault (Quantifier × String × Option String) :=
  match parts? words with
  | none => .error .malformedWinCondition
  | some (word, subject, target) =>
    match Quantifier.ofWord? word with
    | none => .error (.unknownQuantifier word)
    | some quantifier =>
      if quantifier = .all ∧ target.isNone then
        .error .missingWinTarget
      else
        .ok (quantifier, subject, target)

/-- Reads a win condition line. -/
def ofLine (line : Line) : Except SyntaxError WinDeclaration :=
  match read (Text.words line.text) with
  | .error fault => .error ⟨line.number, fault⟩
  | .ok (quantifier, subject, target) => .ok ⟨line.number, quantifier, subject, target⟩

end WinDeclaration

end TilePuzzle
