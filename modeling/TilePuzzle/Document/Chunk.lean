import TilePuzzle.Document.Line

/-!
# Dividing a document into sections

A header is a line that holds just a section name. Every other line belongs to the nearest header
above it, or to the prelude if there is none; separator lines belong nowhere. No header may occur
twice, and a line right between two separators must be a header.
-/

namespace TilePuzzle

/-- The lines under one header; without a header they are the prelude. -/
structure Chunk where
  header : Option SectionName
  lines : List Line
deriving DecidableEq, Inhabited

namespace Chunk

/-! ## A division in progress -/

/-- The chunks seen so far and the one being read. -/
structure Division where
  /-- The finished chunks, the latest first. -/
  finished : List Chunk
  header : Option SectionName
  /-- The lines of the chunk being read, the latest first. -/
  lines : List Line

namespace Division

/-- Before the first line. -/
def start : Division := ⟨[], none, []⟩

/-- The chunk being read, as it stands. -/
def current (division : Division) : Chunk := ⟨division.header, division.lines.reverse⟩

/-- Whether a header has occurred. -/
def hasHeader (division : Division) (name : SectionName) : Bool :=
  division.header == some name ||
    division.finished.any fun chunk ↦ chunk.header == some name

/-- Begins the chunk under a header. -/
def begin (division : Division) (name : SectionName) : Division :=
  ⟨division.current :: division.finished, some name, []⟩

/-- Adds a line to the chunk being read. -/
def add (division : Division) (line : Line) : Division :=
  { division with lines := line :: division.lines }

/-- The chunks in order. -/
def finish (division : Division) : List Chunk :=
  (division.current :: division.finished).reverse

end Division

/-! ## The division -/

/-- Goes on dividing; `below` tells whether the line just above is a separator. -/
def divide : (below : Bool) → List Line → Division → Except SyntaxError Division
  | _, [], division => .ok division
  | below, line :: rest, division =>
    if line.isSeparator then
      divide true rest division
    else
      match SectionName.ofWord? line.text with
      | some name =>
        if division.hasHeader name then
          .error ⟨line.number, .duplicateSection name⟩
        else
          divide false rest (division.begin name)
      | none =>
        if below && rest.head?.any Line.isSeparator then
          .error ⟨line.number, .unknownSection line.text⟩
        else
          divide false rest (division.add line)

/-- The prelude and the sections of a document, in order. -/
def split (lines : List Line) : Except SyntaxError (List Chunk) :=
  (divide false lines .start).map Division.finish

end Chunk

end TilePuzzle
