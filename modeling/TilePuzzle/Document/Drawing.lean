import TilePuzzle.Document.Line

/-!
# Levels as they are drawn

A level is drawn as a run of lines, one character for each cell. Blank lines and lines of the form
`message …` end a level; messages themselves are not kept.
-/

namespace TilePuzzle

/-- A level as it is drawn. -/
structure Drawing where
  /-- The line of the first row. -/
  line : Nat
  rows : List String
deriving DecidableEq, Inhabited

namespace Drawing

/-- Whether a line is a message to the player. -/
def isMessage (line : Line) : Bool := (Text.words line.text).head?.any (Text.sameWord "message")

/-! ## Reading levels -/

/-- The levels read so far, the latest first, and the one being read. -/
structure Reading where
  finished : List Drawing
  /-- The line of the first row and the rows, the latest first. -/
  current : Option (Nat × List String)

namespace Reading

/-- The levels, the latest first, when the present one ends here. -/
def drawings (reading : Reading) : List Drawing :=
  match reading.current with
  | none => reading.finished
  | some (line, rows) => ⟨line, rows.reverse⟩ :: reading.finished

/-- Reads one line. -/
def step (reading : Reading) (line : Line) : Reading :=
  if line.isBlank || isMessage line then
    ⟨reading.drawings, none⟩
  else
    match reading.current with
    | none => { reading with current := some (line.number, [line.text]) }
    | some (first, rows) => { reading with current := some (first, line.text :: rows) }

end Reading

/-- The levels of a section. -/
def ofLines (lines : List Line) : List Drawing :=
  (lines.foldl Reading.step ⟨[], none⟩).drawings.reverse

/-- The lines of a section that are messages to the player. -/
def messageLines (lines : List Line) : List Nat := (lines.filter isMessage).map Line.number

end Drawing

end TilePuzzle
