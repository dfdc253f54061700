import TilePuzzle.Log

/-!
# Colours and what objects look like

## Colours

A colour is written as a name of the palette, as `#` and three hexadecimal digits, or as `#` and
three pairs. Pairs are two *bytes* each, not two characters, and are read from left to right until
one is no number; a pair may also be a plus sign and one digit. When a pair ends inside a character
that takes several bytes, reading crashes.

## Sprites

An object is drawn with a palette of colours and a sprite, a rectangle of palette indices in which
some pixels are transparent. An object without a sprite is a plain square of its first colour.
-/

namespace TilePuzzle

/-- An opaque colour. -/
structure Color where
  red : UInt8
  green : UInt8
  blue : UInt8
deriving DecidableEq, Inhabited

namespace Color

/-! ## Hexadecimal colours -/

/-- The value of a hexadecimal digit. -/
def hexDigit? (c : Char) : Option Nat :=
  if '0' ≤ c ∧ c ≤ '9' then some (c.toNat - '0'.toNat)
  else if 'a' ≤ c ∧ c ≤ 'f' then some (c.toNat - 'a'.toNat + 10)
  else if 'A' ≤ c ∧ c ≤ 'F' then some (c.toNat - 'A'.toNat + 10)
  else none

/-- The channel written as one digit, which stands for the pair of itself. -/
def digitChannel? (c : Char) : Option UInt8 := (hexDigit? c).map fun n ↦ .ofNat (17 * n)

/-- The channel written as a pair of digits, or as a plus sign and a digit. -/
def pairChannel? : List Char → Option UInt8
  | ['+', low] => (hexDigit? low).map .ofNat
  | [high, low] => do
    let high ← hexDigit? high
    let low ← hexDigit? low
    return .ofNat (16 * high + low)
  | _ => none

/-- The number of bytes that characters take. -/
def byteCount (cs : List Char) : Nat := cs.foldl (fun n c ↦ n + c.utf8Size) 0

/-- Cuts off the first `n` bytes. -/
def splitBytes : Nat → List Char → Except Crash (List Char × List Char)
  | 0, cs => .ok ([], cs)
  | _ + 1, [] => .ok ([], [])
  | n + 1, c :: cs =>
    if n + 1 < c.utf8Size then
      .error .splitCharacter
    else do
      let (front, rest) ← splitBytes (n + 1 - c.utf8Size) cs
      return (c :: front, rest)

/-- The colour written as three digits. -/
def ofDigits? : List Char → Option Color
  | [red, green, blue] => do
    let red ← digitChannel? red
    let green ← digitChannel? green
    let blue ← digitChannel? blue
    return ⟨red, green, blue⟩
  | _ => none

/-- The colour written as three pairs of bytes, read one after the other. -/
def ofPairs (digits : List Char) : Except Crash (Option Color) := do
  let (pair, digits) ← splitBytes 2 digits
  let some red := pairChannel? pair | return none
  let (pair, digits) ← splitBytes 2 digits
  let some green := pairChannel? pair | return none
  let (pair, _) ← splitBytes 2 digits
  let some blue := pairChannel? pair | return none
  return some ⟨red, green, blue⟩

/-- The colour written in hexadecimal, if the text is one. -/
def ofHex (text : String) : Except Crash (Option Color) :=
  match text.toList with
  | '#' :: digits =>
    if byteCount digits = 3 then .ok (ofDigits? digits)
    else if byteCount digits = 6 then ofPairs digits
    else .ok none
  | _ => .ok none

/-! ## Named colours -/

/-- The colours that have a name. -/
def palette : List (String × Color) := [
  ("black", ⟨0x00, 0x00, 0x00⟩),
  ("white", ⟨0xff, 0xff, 0xff⟩),
  ("grey", ⟨0x9d, 0x9d, 0x9d⟩),
  ("darkgrey", ⟨0x69, 0x71, 0x75⟩),
  ("lightgrey", ⟨0xcc, 0xcc, 0xcc⟩),
  ("gray", ⟨0x9d, 0x9d, 0x9d⟩),
  ("darkgray", ⟨0x69, 0x71, 0x75⟩),
  ("lightgray", ⟨0xcc, 0xcc, 0xcc⟩),
  ("red", ⟨0xbe, 0x26, 0x33⟩),
  ("darkred", ⟨0x73, 0x29, 0x30⟩),
  ("lightred", ⟨0xe0, 0x6f, 0x8b⟩),
  ("brown", ⟨0xa4, 0x64, 0x22⟩),
  ("darkbrown", ⟨0x49, 0x3c, 0x2b⟩),
  ("orange", ⟨0xeb, 0x89, 0x31⟩),
  ("yellow", ⟨0xf7, 0xe2, 0x6b⟩),
  ("green", ⟨0x44, 0x89, 0x1a⟩),
  ("darkgreen", ⟨0x2f, 0x48, 0x4e⟩),
  ("blue", ⟨0x1d, 0x57, 0xf7⟩),
  ("purple", ⟨0x88, 0x2e, 0x72⟩)]

/-- The colour of a given name, in any ASCII case. -/
def named? (name : String) : Option Color := (Text.readWord? palette Prod.fst name).map Prod.snd

end Color

/-! ## What objects look like -/

/-- How an object looks: its palette and its sprite. -/
structure Appearance where
  /-- The colours by index; an index without a colour is transparent. -/
  palette : List (Option Color)
  width : Nat
  height : Nat
  /-- The palette indices row by row; a pixel without one is transparent. -/
  pixels : List (Option Nat)
deriving DecidableEq, Inhabited

namespace Appearance

/-- The colour of a pixel. An object without a sprite has its first colour everywhere. -/
def colorAt? (appearance : Appearance) (x y : Nat) : Option Color :=
  if appearance.pixels.isEmpty then
    appearance.palette.head?.join
  else if x < appearance.width ∧ y < appearance.height then do
    let index ← appearance.pixels[y * appearance.width + x]?.join
    appearance.palette[index]?.join
  else
    none

end Appearance

end TilePuzzle
