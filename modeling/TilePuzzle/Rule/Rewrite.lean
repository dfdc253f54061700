import TilePuzzle.Change
import TilePuzzle.Game
import TilePuzzle.Rule.Match

/-!
# Rewriting

A matched rule rewrites its cells one after the other. In a cell, first the bound objects without a
counterpart are removed, then those that are kept get their intents, then the cleared sets are taken
out, and last the new objects are put in, each in place of what was on its layer. Every step writes
down the changes it makes.

A cell that ends up as it was is left out of the record, whatever was done in between; a rewriting
without any changed cell is no firing at all.
-/

namespace TilePuzzle

/-! ## Edits of one cell -/

/-- A cell being rewritten, with the changes made so far. -/
structure CellEdit where
  cell : Cell
  changes : List Change
deriving DecidableEq, Inhabited

/-- The new intent and the kind of change, when a write has an effect on the present intent. -/
def IntentWrite.effect? : IntentWrite → Option Movement → Option (Option Movement × ChangeKind)
  | unchanged, _ => none
  | clear, none => none
  | clear, some _ => some (none, .stationary)
  | set movement, now => if now = some movement then none else some (some movement, .move movement)

namespace CellEdit

/-- Goes on with a new cell and one more change. -/
def record (edit : CellEdit) (cell : Cell) (object : ObjectId) (kind : ChangeKind) : CellEdit :=
  ⟨cell, edit.changes ++ [⟨object, kind⟩]⟩

/-- Whether the object of a binding is still in its place. -/
def isInPlace (edit : CellEdit) (binding : Binding) : Bool :=
  (edit.cell.occupant? binding.layer).map Occupant.object == some binding.object

/-- Removes a bound object that is still in its place. -/
def remove (edit : CellEdit) (binding : Binding) : CellEdit :=
  if edit.isInPlace binding then
    edit.record (edit.cell.take binding.layer) binding.object .destroy
  else
    edit

/-- Writes the intent of an object on a layer, if that is the object there. -/
def writeIntent (edit : CellEdit) (binding : Binding) (write : IntentWrite) : CellEdit :=
  match edit.cell.occupant? binding.layer with
  | none => edit
  | some occupant =>
    if occupant.object = binding.object then
      match write.effect? occupant.movement with
      | none => edit
      | some (movement, kind) =>
        edit.record (edit.cell.put binding.layer ⟨occupant.object, movement⟩) binding.object kind
    else
      edit

/-- Takes the occupants that are members of a set out of the cell. -/
def clear (edit : CellEdit) (set : ObjectSet) : CellEdit :=
  (edit.cell.occupants.filter fun (_, occupant) ↦ set.contains occupant.object).foldl
    (fun edit (layer, occupant) ↦ edit.record (edit.cell.take layer) occupant.object .destroy) edit

/-- Puts a new object on its layer in place of what is there. -/
def place (edit : CellEdit) (layer : LayerId) (spawn : Spawn) : CellEdit :=
  let created := edit.cell.put layer ⟨spawn.object, spawn.movement⟩
  let edit := match edit.cell.occupant? layer with
    | none => edit
    | some previous => edit.record created previous.object .destroy
  let edit := edit.record created spawn.object .create
  match spawn.movement with
  | none => edit
  | some movement => edit.record created spawn.object (.move movement)

/-- Spawns an object: one that is there already only gets the intent. -/
def spawn (game : Game) (edit : CellEdit) (spawn : Spawn) : CellEdit :=
  match game.template? spawn.object with
  | none => edit
  | some template =>
    if edit.isInPlace ⟨template.layer, spawn.object⟩ then
      match spawn.movement with
      | none => edit
      | some movement => edit.writeIntent ⟨template.layer, spawn.object⟩ (.set movement)
    else
      edit.place template.layer spawn

end CellEdit

/-! ## Rewriting one cell -/

namespace RuleCell

/-- Removes the bound objects whose fate it is. -/
def removeBound (pattern : RuleCell) (bindings : List Binding) (edit : CellEdit) : CellEdit :=
  (pattern.requirements.zip bindings).foldl (fun edit (requirement, binding) ↦
    match requirement.fate with
    | .remove => edit.remove binding
    | .keep _ => edit) edit

/-- Writes the intents of the bound objects that are kept. -/
def writeKept (pattern : RuleCell) (bindings : List Binding) (edit : CellEdit) : CellEdit :=
  (pattern.requirements.zip bindings).foldl (fun edit (requirement, binding) ↦
    match requirement.fate with
    | .remove => edit
    | .keep write => edit.writeIntent binding write) edit

/-- Rewrites a cell whose requirements are bound. -/
def rewrite (pattern : RuleCell) (game : Game) (cell : Cell) (bindings : List Binding) :
    CellEdit :=
  let edit := pattern.writeKept bindings (pattern.removeBound bindings ⟨cell, []⟩)
  let edit := pattern.clears.foldl CellEdit.clear edit
  pattern.spawns.foldl (CellEdit.spawn game) edit

end RuleCell

/-! ## Rewriting a row of cells -/

/-- Rewrites a row of cells that starts at a position: the board and the cells that changed. -/
def rewriteCells (game : Game) (direction : Direction) :
    List (RuleCell × List Binding) → Position → Board → Board × List CellChange
  | [], _, board => (board, [])
  | (pattern, bindings) :: rest, position, board =>
    match board.cell? position with
    | none => rewriteCells game direction rest (position.step direction) board
    | some cell =>
      let edit := pattern.rewrite game cell bindings
      if edit.cell = cell then
        rewriteCells game direction rest (position.step direction) board
      else
        match rewriteCells game direction rest (position.step direction)
          (board.setCell position edit.cell) with
        | (board, cells) => (board, ⟨position, edit.changes⟩ :: cells)

/-- Rewrites the board where a rule matched: the board and the cells that changed. -/
def Rule.rewrite (rule : Rule) (game : Game) (board : Board) (origin : Position)
    (bindings : List (List Binding)) : Board × List CellChange :=
  match rewriteCells game rule.direction (rule.cells.zip bindings) origin board with
  | (board, cells) => (board, labelTransfers cells)

end TilePuzzle
