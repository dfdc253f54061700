import TilePuzzle.Document.Line

/-!
# Object declarations

An object is declared by a line with its name and further symbols for it, then possibly a line of
colours, then possibly the rows of its sprite. A row consists of points and digits. A blank line
ends the declaration, and so does a line that is no row once the colours are read or a row has been
seen.
-/

namespace TilePuzzle

/-- The declaration of an object. -/
structure ObjectDeclaration where
  /-- The line of the name. -/
  line : Nat
  name : String
  /-- The symbols written after the name. -/
  glyphs : List String
  colors : List String
  /-- The rows of the sprite, a point or a palette index for each pixel. -/
  sprite : List String
deriving DecidableEq, Inhabited

namespace ObjectDeclaration

/-- Whether a line is a row of a sprite. -/
def isSpriteRow (text : String) : Bool :=
  !text.isEmpty && text.toList.all fun c ↦ c == '.' || c.isDigit

/-- The declaration that a line begins. -/
def ofNameLine (line : Line) : ObjectDeclaration :=
  match Text.words line.text with
  | [] => ⟨line.number, "", [], [], []⟩
  | name :: glyphs => ⟨line.number, name, glyphs, [], []⟩

/-! ## Reading declarations -/

/-- What has been read of the present declaration. -/
inductive Stage
  /-- No declaration is being read. -/
  | between
  /-- Its name has been read. -/
  | named (declaration : ObjectDeclaration)
  /-- Its colours or some rows have been read; the rows are listed the latest first. -/
  | drawing (declaration : ObjectDeclaration) (rows : List String)

/-- The finished declarations, the latest first, and the present one. -/
structure Reading where
  finished : List ObjectDeclaration
  stage : Stage

namespace Reading

/-- The declarations, the latest first, when the present one ends here. -/
def declarations (reading : Reading) : List ObjectDeclaration :=
  match reading.stage with
  | .between => reading.finished
  | .named declaration => declaration :: reading.finished
  | .drawing declaration rows => { declaration with sprite := rows.reverse } :: reading.finished

/-- Reads a line that begins a declaration. -/
def begin (reading : Reading) (line : Line) : Reading :=
  ⟨reading.declarations, .named (ofNameLine line)⟩

/-- Reads one line. -/
def step (reading : Reading) (line : Line) : Reading :=
  if line.isBlank then
    ⟨reading.declarations, .between⟩
  else
    match reading.stage with
    | .between => reading.begin line
    | .named declaration =>
      if isSpriteRow line.text then
        { reading with stage := .drawing declaration [line.text] }
      else
        { reading with stage := .drawing { declaration with colors := Text.words line.text } [] }
    | .drawing declaration rows =>
      if isSpriteRow line.text then
        { reading with stage := .drawing declaration (line.text :: rows) }
      else
        reading.begin line

end Reading

/-- The declarations of a section. -/
def ofLines (lines : List Line) : List ObjectDeclaration :=
  (lines.foldl Reading.step ⟨[], .between⟩).declarations.reverse

end ObjectDeclaration

end TilePuzzle
