import TilePuzzle.Document.Chunk
import TilePuzzle.Document.Drawing
import TilePuzzle.Document.LineDeclaration
import TilePuzzle.Document.LegendDefinition
import TilePuzzle.Document.ObjectDeclaration
import TilePuzzle.Document.RuleDeclaration.Reader
import TilePuzzle.Log

/-!
# Documents

A document is the text of a game, read but not yet understood: names stand as they were written, and
whether they mean anything is decided later. Every part knows the line that it was read from.

A text is cut into lines and divided into sections before any section is read; then the sections are
read in the order in which they stand.
-/

namespace TilePuzzle

/-- A game as it is written. -/
structure Document where
  settings : List Setting
  objects : List ObjectDeclaration
  legend : List LegendDefinition
  layers : List LayerDeclaration
  rules : List RuleDeclaration
  winConditions : List WinDeclaration
  levels : List Drawing
deriving DecidableEq, Inhabited

namespace Document

/-- A document without any part. -/
def empty : Document := ⟨[], [], [], [], [], [], []⟩

/-- The lines that are not blank. -/
def content (lines : List Line) : List Line := lines.filter fun line ↦ !line.isBlank

/-- Reads one chunk into a document. The sounds are skipped. -/
def readChunk (document : Document) (chunk : Chunk) : Except SyntaxError Document :=
  match chunk.header with
  | none => .ok { document with settings := (content chunk.lines).map .ofLine }
  | some .objects => .ok { document with objects := ObjectDeclaration.ofLines chunk.lines }
  | some .legend => do
    let legend ← (content chunk.lines).mapM LegendDefinition.ofLine
    return { document with legend }
  | some .sounds => .ok document
  | some .collisionLayers => .ok { document with layers := (content chunk.lines).map .ofLine }
  | some .rules => do
    let rules ← (content chunk.lines).mapM RuleDeclaration.ofLine
    return { document with rules }
  | some .winConditions => do
    let winConditions ← (content chunk.lines).mapM WinDeclaration.ofLine
    return { document with winConditions }
  | some .levels => .ok { document with levels := Drawing.ofLines chunk.lines }

/-- Tells of the parts of a chunk that are not kept. -/
def reportSkipped (chunk : Chunk) : Logged SyntaxError Unit :=
  if chunk.header = some .levels then
    (Drawing.messageLines chunk.lines).forM fun line ↦
      Logged.info s!"line {line}: skipping level message"
  else
    return ()

/-- Reads a text. -/
def read (source : String) : Logged SyntaxError Document := do
  let lines ← Logged.lift (Line.split source)
  let chunks ← Logged.lift (Chunk.split lines)
  chunks.foldlM (fun document chunk ↦ do
    reportSkipped chunk
    Logged.lift (document.readChunk chunk)) empty

/-- Reads a text, turning an error into a message. -/
def readOrReport (source : String) (log : Log) : Option Document × Log :=
  match (read source).runOn log with
  | (.ok document, log) => (some document, log)
  | (.error error, log) => (none, log.error s!"parse error: {error.message}")

end Document

end TilePuzzle
