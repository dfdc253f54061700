import TilePuzzle.Definition.SymbolTable
import TilePuzzle.Document.RuleDeclaration

/-!
# From rule lines to rules

A rule line stands for one rule in each direction it applies in. In a cell, the left terms become
requirements and exclusions. A right term then keeps the first requirement for the same objects that
no earlier right term has kept, whatever names the two were written with. Requirements that no right
term keeps are removed, and right terms without a counterpart are spawned, which a property cannot
be.

The direction does not matter to a rule of one cell that uses no relative movement; such a rule is
taken once.
-/

namespace TilePuzzle

/-! ## Words -/

/-- The directions that a rule line applies in: all of them if none is written. -/
def DirectionSet.ofHeadings (headings : List Heading) : DirectionSet :=
  let set := headings.foldl (fun set heading ↦ set.union heading.directions) .empty
  if set = .empty then .orthogonal else set

/-- The orders that the words behind a rule give. -/
def Commands.ofList (commands : List RuleCommand) : Commands :=
  ⟨commands.contains .cancel, commands.contains .win⟩

/-- What the movement written in front of a left term asks for. -/
def MovementTest.ofWord (along : Direction) : Option MovementWord → MovementTest
  | none => any
  | some word =>
    match word.movement? along with
    | none => still
    | some movement => exactly movement

/-- What becomes of the intent of a kept object: what the right term writes, and if it writes
nothing, the intent is taken away where the left term asked for one. -/
def IntentWrite.ofWord (along : Direction) (word : Option MovementWord) (test : MovementTest) :
    IntentWrite :=
  match word with
  | none => if test.isConstrained then clear else unchanged
  | some word =>
    match word.movement? along with
    | none => clear
    | some movement => set movement

/-! ## Left terms -/

namespace RuleCell

/-- A cell without conditions and effects. -/
def empty : RuleCell := ⟨[], [], [], []⟩

/-- The sets that a positive left term requires: each member of an aggregate by itself. -/
def requiredSets : Meaning → List ObjectSet
  | .object id => [.single id]
  | .property members => [members]
  | .aggregate members => members.map .single

/-- Adds a left term to a cell. -/
def addLeft (legend : Legend) (line : Nat) (along : Direction) (cell : RuleCell)
    (term : PatternTerm) : Except DefinitionError RuleCell := do
  let meaning ← legend.resolve line term.name
  let test := MovementTest.ofWord along term.movement
  if term.negated then
    return { cell with exclusions := cell.exclusions ++ [⟨meaning.objects, test⟩] }
  else
    let requirements := (requiredSets meaning).map fun objects ↦ ⟨objects, test, .remove⟩
    return { cell with requirements := cell.requirements ++ requirements }

/-! ## Right terms -/

/-- Keeps the first requirement for a set that is not kept yet, if there is one. -/
def claim? (objects : ObjectSet) (write : MovementTest → IntentWrite) :
    List Requirement → Option (List Requirement)
  | [] => none
  | requirement :: rest =>
    if requirement.fate = .remove ∧ requirement.objects = objects then
      some ({ requirement with fate := .keep (write requirement.test) } :: rest)
    else
      (claim? objects write rest).map (requirement :: ·)

/-- Keeps a requirement for an object, or spawns the object. -/
def keepOrSpawn (along : Direction) (word : Option MovementWord) (cell : RuleCell)
    (id : ObjectId) : RuleCell :=
  match claim? (.single id) (.ofWord along word) cell.requirements with
  | some requirements => { cell with requirements }
  | none => { cell with spawns := cell.spawns ++ [⟨id, word.bind (·.movement? along)⟩] }

/-- Adds a right term to a cell. -/
def addRight (legend : Legend) (line : Nat) (along : Direction) (cell : RuleCell)
    (term : PatternTerm) : Except DefinitionError RuleCell := do
  let meaning ← legend.resolve line term.name
  if term.negated then
    return { cell with clears := cell.clears ++ [meaning.objects] }
  else
    match meaning with
    | .object id => return cell.keepOrSpawn along term.movement id
    | .aggregate members => return members.foldl (keepOrSpawn along term.movement) cell
    | .property members =>
      match claim? members (.ofWord along term.movement) cell.requirements with
      | some requirements => return { cell with requirements }
      | none => throw (.unboundProperty line term.name)

/-- Keeps every requirement as it is. -/
def keepAll (cell : RuleCell) : RuleCell :=
  { cell with
    requirements := cell.requirements.map fun requirement ↦
      { requirement with fate := .keep .unchanged } }

/-- The rule cell of a left cell and the right cell across from it, if there is a right side. -/
def ofPattern (legend : Legend) (line : Nat) (along : Direction) (left : CellPattern)
    (right : Option CellPattern) : Except DefinitionError RuleCell := do
  let cell ← left.foldlM (addLeft legend line along) empty
  match right with
  | none => return cell.keepAll
  | some right => right.foldlM (addRight legend line along) cell

end RuleCell

/-! ## Rules -/

namespace RuleDeclaration

/-- A rule must have a right side or a command, and its sides must have as many cells. -/
def checkShape (rule : RuleDeclaration) : Except DefinitionError Unit :=
  match rule.right with
  | none => if rule.commands.isEmpty then .error (.ruleWithoutEffect rule.line) else .ok ()
  | some right =>
    if right.length = rule.left.length then .ok ()
    else .error (.cellCountMismatch rule.line rule.left.length right.length)

/-- The left cells, each with the right cell across from it. -/
def cellPairs (rule : RuleDeclaration) : List (CellPattern × Option CellPattern) :=
  match rule.right with
  | none => rule.left.map fun left ↦ (left, none)
  | some right => rule.left.zip (right.map some)

/-- The rule in one direction. -/
def inDirection (rule : RuleDeclaration) (legend : Legend) (direction : Direction) :
    Except DefinitionError Rule := do
  let cells ← rule.cellPairs.mapM fun (left, right) ↦
    RuleCell.ofPattern legend rule.line direction left right
  return { line := rule.line, direction, cells, commands := .ofList rule.commands }

/-- The rules in all directions that the line applies in. -/
def inDirections (rule : RuleDeclaration) (legend : Legend) :
    Except DefinitionError (List Rule) := do
  rule.checkShape
  (DirectionSet.ofHeadings rule.headings).toList.mapM (rule.inDirection legend)

/-- Leaves out rules of one cell that do the same as an earlier one. -/
def dropRepeated (rules : List Rule) : List Rule :=
  rules.foldl (fun kept rule ↦
    if rule.cells.length = 1 ∧ kept.any fun earlier ↦ earlier.cells = rule.cells then kept
    else kept ++ [rule]) []

/-- The rules that the line stands for. -/
def expand (rule : RuleDeclaration) (legend : Legend) : Except DefinitionError (List Rule) := do
  let rules ← rule.inDirections legend
  return dropRepeated rules

end RuleDeclaration

/-! ## Groups -/

/-- Adds the rules of a line to groups listed the latest first: to the latest of them if the line
joins it. -/
def RuleGroup.add : List RuleGroup → RuleDeclaration × List Rule → List RuleGroup
  | [], (_, rules) => [⟨rules⟩]
  | group :: earlier, (declaration, rules) =>
    if declaration.joinsPrevious then ⟨group.rules ++ rules⟩ :: earlier
    else ⟨rules⟩ :: group :: earlier

/-- Collects the rules of each line in groups. -/
def RuleGroup.collect (lines : List (RuleDeclaration × List Rule)) : List RuleGroup :=
  (lines.foldl add []).reverse

/-- The rule groups of the rule lines. -/
def RuleGroup.build (legend : Legend) (declarations : List RuleDeclaration) :
    Except DefinitionError (List RuleGroup) := do
  let rules ← declarations.mapM fun declaration ↦ declaration.expand legend
  return collect (declarations.zip rules)

end TilePuzzle
