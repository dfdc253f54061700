import TilePuzzle.Document.Line

/-!
# Legend lines

A legend line gives a symbol a meaning: another name, several names joined by `or`, or several names
joined by `and`. The two conjunctions cannot be mixed on one line.
-/

namespace TilePuzzle

/-- How the names of a legend line are joined. -/
inductive Joining
  /-- There is only one name. -/
  | alone
  /-- The names are joined by `or`. -/
  | either
  /-- The names are joined by `and`. -/
  | together
deriving DecidableEq, Inhabited

namespace Joining

/-- What a conjunction joins names to, in any ASCII case. -/
def ofWord? (word : String) : Option Joining :=
  if Text.sameWord "or" word then some either
  else if Text.sameWord "and" word then some together
  else none

/-- The joining once one more conjunction is read. -/
def meet (joining next : Joining) : Except SyntaxFault Joining :=
  if joining = alone ∨ joining = next then .ok next else .error .mixedLegendOperators

end Joining

/-- A symbol and the names that give it a meaning. -/
structure LegendDefinition where
  line : Nat
  symbol : String
  joining : Joining
  names : List String
deriving DecidableEq, Inhabited

namespace LegendDefinition

/-- Reads the words of a definition after its first name; `names` holds the names so far, the latest
first. -/
def readTail : Joining → List String → List String → Except SyntaxFault (Joining × List String)
  | joining, names, [] => .ok (joining, names.reverse)
  | _, _, [_] => .error .malformedLegend
  | joining, names, word :: name :: rest =>
    match Joining.ofWord? word with
    | none => .error .malformedLegend
    | some next => do
      let joining ← joining.meet next
      readTail joining (name :: names) rest

/-- Reads the words of a definition: names with a conjunction between any two. -/
def readWords (words : List String) : Except SyntaxFault (Joining × List String) :=
  if words.length % 2 = 0 then
    .error .malformedLegend
  else
    match words with
    | [] => .error .malformedLegend
    | name :: rest => readTail .alone [name] rest

/-- Reads the text of a legend line: a symbol, the first `=`, and a definition. -/
def read (text : String) : Except SyntaxFault (String × Joining × List String) :=
  match Text.cutAt (· == '=') text.toList with
  | (_, none) => .error .malformedLegend
  | (symbol, some definition) =>
    let symbol := Text.trimChars symbol
    if symbol.isEmpty || symbol.any Text.isBlank then
      .error .malformedLegend
    else do
      let (joining, names) ← readWords ((Text.pieces Text.isBlank definition).map .ofList)
      return (.ofList symbol, joining, names)

/-- Reads a legend line. -/
def ofLine (line : Line) : Except SyntaxError LegendDefinition :=
  match read line.text with
  | .error fault => .error ⟨line.number, fault⟩
  | .ok (symbol, joining, names) => .ok ⟨line.number, symbol, joining, names⟩

end LegendDefinition

end TilePuzzle
