import TilePuzzle.Color
import TilePuzzle.Document.ObjectDeclaration
import TilePuzzle.Log

/-!
# The appearance of a declared object

The colour words of a declaration become its palette, and the rows of its sprite become pixels. A
word that is no colour and a digit without a colour are transparent and leave a warning; short rows
are filled up with transparent pixels. Nothing here refuses a document, but a colour that cuts a
character crashes.
-/

namespace TilePuzzle.ObjectDeclaration

/-! ## Colours -/

/-- Reads a colour word; the word `transparent` is no colour on purpose. -/
def readColor (declaration : ObjectDeclaration) (word : String) : Logged Crash (Option Color) := do
  if Text.sameWord "transparent" word then
    return none
  let hex ← Logged.lift (Color.ofHex word)
  match hex.or (Color.named? word) with
  | some color => return some color
  | none =>
    Logged.warning s!"line {declaration.line}: unknown color `{word}` for `{declaration.name}`"
    return none

/-! ## Pixels -/

/-- The number that a character of a sprite row writes. -/
def digit? (c : Char) : Option Nat := if c.isDigit then some (c.toNat - '0'.toNat) else none

/-- The palette index of a pixel, if the palette has so many colours. -/
def pixel? (colors : Nat) (c : Char) : Option Nat := (digit? c).filter (· < colors)

/-- The length of the longest row. -/
def width (declaration : ObjectDeclaration) : Nat :=
  (declaration.sprite.map String.length).foldl max 0

/-- The pixels of a row, filled up to a given width. -/
def rowPixels (colors width : Nat) (row : String) : List (Option Nat) :=
  row.toList.map (pixel? colors) ++ .replicate (width - row.length) none

/-- The digits of the sprite that have no colour, in order. -/
def strayDigits (declaration : ObjectDeclaration) (colors : Nat) : List Nat :=
  declaration.sprite.flatMap fun row ↦
    row.toList.filterMap fun c ↦ (digit? c).filter (colors ≤ ·)

/-! ## Appearance -/

/-- The appearance of an object with a given palette. -/
def drawWith (declaration : ObjectDeclaration) (palette : List (Option Color)) : Appearance where
  palette
  width := declaration.width
  height := declaration.sprite.length
  pixels := declaration.sprite.flatMap (rowPixels palette.length declaration.width)

/-- Warns of a digit without a colour. -/
def warnOfDigit (declaration : ObjectDeclaration) (colors digit : Nat) : Logged Crash Unit :=
  Logged.warning (s!"line {declaration.line}: sprite of `{declaration.name}` " ++
    s!"uses color {digit} but only {colors} are defined")

/-- The appearance of a declared object. -/
def appearance (declaration : ObjectDeclaration) : Logged Crash Appearance := do
  let palette ← declaration.colors.mapM declaration.readColor
  (declaration.strayDigits palette.length).forM (declaration.warnOfDigit palette.length)
  return declaration.drawWith palette

end TilePuzzle.ObjectDeclaration
