import TilePuzzle.Document.Error
import TilePuzzle.Text

/-!
# Lines and comments

A comment is what stands between parentheses; comments nest and may go over several lines. They are
dropped while the text is cut into lines, but the line breaks inside them still count, so every line
keeps its number. A closing parenthesis outside of comments is ordinary text.

Each line is trimmed after its comments are gone. What follows the last line break is a line only if
some character of it is left.
-/

namespace TilePuzzle

/-- A line without its comments, trimmed. -/
structure Line where
  /-- The number of the line, counted from one. -/
  number : Nat
  text : String
deriving DecidableEq, Inhabited

namespace Line

/-- Whether nothing is on the line. -/
def isBlank (line : Line) : Bool := line.text.isEmpty

/-- Whether the line is a run of `=` characters. -/
def isSeparator (line : Line) : Bool := !line.isBlank && line.text.toList.all (· == '=')

/-! ## Cutting a text into lines -/

/-- How far a text has been read. -/
structure Scan where
  /-- The finished lines, the latest first. -/
  lines : List Line
  /-- The number of the line being read. -/
  number : Nat
  /-- The characters of the line being read, the latest first. -/
  current : List Char
  /-- The number of comments that are open. -/
  depth : Nat
  /-- The line on which the outermost open comment begins. -/
  opened : Nat

namespace Scan

/-- Before the first character. -/
def start : Scan := ⟨[], 1, [], 0, 0⟩

/-- Ends the line being read. -/
def endLine (scan : Scan) : Scan :=
  { scan with
    lines := ⟨scan.number, .ofList (Text.trimChars scan.current.reverse)⟩ :: scan.lines
    number := scan.number + 1
    current := [] }

/-- Reads one character. -/
def step (scan : Scan) (c : Char) : Scan :=
  if c = '\n' then scan.endLine
  else if c = '(' then
    { scan with
      depth := scan.depth + 1
      opened := if scan.depth = 0 then scan.number else scan.opened }
  else if 0 < scan.depth then
    if c = ')' then { scan with depth := scan.depth - 1 } else scan
  else
    { scan with current := c :: scan.current }

/-- The lines read, in order, unless a comment is still open. -/
def finish (scan : Scan) : Except SyntaxError (List Line) :=
  if 0 < scan.depth then .error ⟨scan.opened, .unclosedComment⟩
  else if scan.current.isEmpty then .ok scan.lines.reverse
  else .ok scan.endLine.lines.reverse

end Scan

/-- The lines of a text. -/
def split (source : String) : Except SyntaxError (List Line) :=
  (source.toList.foldl Scan.step .start).finish

end Line

end TilePuzzle
