import TilePuzzle.Proofs.Rotation.Board
import TilePuzzle.Rule.Rewrite

/-!
# Turning rules

A rule is turned like a board: its direction turns, and so does every movement that its cells ask
for or write. The engine does not notice. A turned rule matches on the turned board where the rule
matched before, with the same bindings, since a binding is a layer and an object and neither of them
turns. It rewrites the board into the turned result, and its record is the turned record: the same
changes of the same objects, at the turned positions and with the movements turned.

## One operation after the other

Every operation on a cell commutes with turning the cell and the rule, from the write of one intent
to the rewriting of a row. The lemmas follow the definitions of the engine, and each is proved from
those before it.
-/

namespace TilePuzzle

/-! ## Parts of a rule -/

/-- The test for the turned movement. -/
def MovementTest.turned : MovementTest → MovementTest
  | any => any
  | still => still
  | exactly movement => exactly movement.turned

/-- The write of the turned movement. -/
def IntentWrite.turned : IntentWrite → IntentWrite
  | unchanged => unchanged
  | clear => clear
  | set movement => set movement.turned

/-- The fate with what it writes turned. -/
def Fate.turned : Fate → Fate
  | keep write => keep write.turned
  | remove => remove

/-- The requirement with its movements turned. -/
def Requirement.turned (requirement : Requirement) : Requirement :=
  ⟨requirement.objects, requirement.test.turned, requirement.fate.turned⟩

/-- The exclusion with its movement turned. -/
def Exclusion.turned (exclusion : Exclusion) : Exclusion :=
  ⟨exclusion.objects, exclusion.test.turned⟩

/-- The new object with its intent turned. -/
def Spawn.turned (spawn : Spawn) : Spawn := ⟨spawn.object, spawn.movement.map Movement.turned⟩

/-- The rule cell with its movements turned. -/
def RuleCell.turned (cell : RuleCell) : RuleCell where
  requirements := cell.requirements.map Requirement.turned
  exclusions := cell.exclusions.map Exclusion.turned
  clears := cell.clears
  spawns := cell.spawns.map Spawn.turned

/-- The rule for the turned direction. -/
def Rule.turned (rule : Rule) : Rule where
  line := rule.line
  direction := rule.direction.turnLeft
  cells := rule.cells.map RuleCell.turned
  commands := rule.commands

/-! ## Records -/

/-- The kind of change with its movement turned. -/
def ChangeKind.turned : ChangeKind → ChangeKind
  | move movement => move movement.turned
  | kind => kind

/-- The change with its movement turned. -/
def Change.turned (change : Change) : Change := ⟨change.object, change.kind.turned⟩

/-- The changes of the cell on a turned board, for a board of some width. -/
def CellChange.turned (width : Nat) (cell : CellChange) : CellChange :=
  ⟨cell.position.turned width, cell.changes.map Change.turned⟩

namespace ChangeKind

@[simp] theorem isPlacement_turned (kind : ChangeKind) :
    kind.turned.isPlacement = kind.isPlacement := by
  cases kind <;> rfl

@[simp] theorem isRemoval_turned (kind : ChangeKind) : kind.turned.isRemoval = kind.isRemoval := by
  cases kind <;> rfl

@[simp] theorem relabel_turned (transferred : Bool) (kind : ChangeKind) :
    kind.turned.relabel transferred = (kind.relabel transferred).turned := by
  cases kind <;> cases transferred <;> rfl

end ChangeKind

@[simp] theorem isTransferred_turned (changes : List Change) (object : ObjectId) :
    isTransferred (changes.map Change.turned) object = isTransferred changes object := by
  rw [isTransferred, isTransferred, List.any_map, List.any_map]
  congr 2
  · exact funext fun change ↦ congrArg _ change.kind.isPlacement_turned
  · exact funext fun change ↦ congrArg _ change.kind.isRemoval_turned

theorem labelTransfers_turned (width : Nat) (cells : List CellChange) :
    labelTransfers (cells.map (CellChange.turned width)) =
      (labelTransfers cells).map (CellChange.turned width) := by
  have hall : (cells.map (CellChange.turned width)).flatMap CellChange.changes =
      (cells.flatMap CellChange.changes).map Change.turned := by
    rw [List.flatMap_map, List.map_flatMap]
    rfl
  rw [labelTransfers, labelTransfers, hall, List.map_map, List.map_map]
  refine List.map_congr_left fun cell _ ↦ ?_
  simp only [Function.comp_apply, CellChange.turned, List.map_map]
  congr 1
  refine List.map_congr_left fun change _ ↦ ?_
  simp only [Function.comp_apply, Change.turned, isTransferred_turned,
    ChangeKind.relabel_turned]

/-! ## Matching -/

@[simp] theorem MovementTest.accepts_turned (test : MovementTest) (movement : Option Movement) :
    test.turned.accepts (movement.map Movement.turned) = test.accepts movement := by
  cases test with
  | any => rfl
  | still => exact Option.isNone_map
  | exactly expected =>
    rw [Bool.eq_iff_iff]
    simp only [turned, accepts, beq_iff_eq]
    exact (Option.map_injective Movement.turned_injective).eq_iff (b := some expected)

@[simp] theorem Requirement.bind?_turned (requirement : Requirement) (cell : Cell) :
    requirement.turned.bind? cell.turned.occupants = requirement.bind? cell.occupants := by
  have hmet : (fun x : LayerId × Occupant ↦ requirement.turned.isMetBy x.2.turned) =
      fun x ↦ requirement.isMetBy x.2 :=
    funext fun x ↦ congrArg _ (requirement.test.accepts_turned x.2.movement)
  rw [bind?, bind?, Cell.occupants_turned, List.find?_map]
  exact (Option.map_map ..).trans (congrArg (fun p ↦ (cell.occupants.find? p).map _) hmet)

theorem Exclusion.any_forbids_turned (exclusion : Exclusion) (cell : Cell) :
    cell.turned.occupants.any (fun x ↦ exclusion.turned.forbids x.2) =
      cell.occupants.any fun x ↦ exclusion.forbids x.2 := by
  rw [Cell.occupants_turned, List.any_map]
  exact congrArg cell.occupants.any
    (funext fun x ↦ congrArg _ (exclusion.test.accepts_turned x.2.movement))

@[simp] theorem RuleCell.match?_turned (pattern : RuleCell) (cell : Cell) :
    pattern.turned.match? cell.turned = pattern.match? cell := by
  have hexclusions : (pattern.turned.exclusions.any fun exclusion ↦
        cell.turned.occupants.any fun x ↦ exclusion.forbids x.2) =
      pattern.exclusions.any fun exclusion ↦
        cell.occupants.any fun x ↦ exclusion.forbids x.2 := by
    rw [turned, List.any_map]
    exact congrArg pattern.exclusions.any
      (funext fun exclusion ↦ exclusion.any_forbids_turned cell)
  have hrequirements : (pattern.turned.requirements.mapM fun requirement ↦
        requirement.bind? cell.turned.occupants) =
      pattern.requirements.mapM fun requirement ↦ requirement.bind? cell.occupants := by
    rw [turned, List.mapM_map]
    exact congrArg (fun f ↦ pattern.requirements.mapM f)
      (funext fun requirement ↦ requirement.bind?_turned cell)
  simp only [match?, hexclusions, hrequirements]

theorem matchCells_turned (board : Board) (direction : Direction) (patterns : List RuleCell)
    (position : Position) :
    matchCells board.turned direction.turnLeft (patterns.map RuleCell.turned)
        (position.turned board.width) =
      matchCells board direction patterns position := by
  induction patterns generalizing position with
  | nil => rfl
  | cons pattern patterns ih =>
    rw [List.map_cons, matchCells, matchCells, Board.cell?_turned, ← Position.turned_step]
    cases board.cell? position with
    | none => rfl
    | some cell =>
      simp only [Option.map_some, Option.bind_eq_bind, Option.bind_some, ih,
        RuleCell.match?_turned]

/-- **A turned rule matches where the rule matched**, with the same bindings. -/
theorem Rule.match?_turned (rule : Rule) (board : Board) (origin : Position) :
    rule.turned.match? board.turned (origin.turned board.width) = rule.match? board origin :=
  matchCells_turned board rule.direction rule.cells origin

/-! ## Edits -/

theorem IntentWrite.effect?_turned (write : IntentWrite) (movement : Option Movement) :
    write.turned.effect? (movement.map Movement.turned) =
      (write.effect? movement).map fun x ↦ (x.1.map Movement.turned, x.2.turned) := by
  cases write with
  | unchanged => rfl
  | clear => cases movement <;> rfl
  | set wanted =>
    have hiff : movement.map Movement.turned = some wanted.turned ↔ movement = some wanted :=
      (Option.map_injective Movement.turned_injective).eq_iff (b := some wanted)
    simp only [turned, effect?, hiff]
    split <;> rfl

namespace CellEdit

/-- The edit of the turned cell. -/
def turned (edit : CellEdit) : CellEdit := ⟨edit.cell.turned, edit.changes.map Change.turned⟩

variable {edit : CellEdit}

@[simp] theorem record_turned (edit : CellEdit) (cell : Cell) (object : ObjectId)
    (kind : ChangeKind) :
    edit.turned.record cell.turned object kind.turned = (edit.record cell object kind).turned := by
  simp only [record, turned, List.map_append, List.map_singleton, Change.turned]

@[simp] theorem isInPlace_turned (edit : CellEdit) (binding : Binding) :
    edit.turned.isInPlace binding = edit.isInPlace binding := by
  rw [isInPlace, isInPlace, turned, Cell.occupant?_turned, Option.map_map]
  rfl

@[simp] theorem remove_turned (edit : CellEdit) (binding : Binding) :
    edit.turned.remove binding = (edit.remove binding).turned := by
  rw [remove, remove, isInPlace_turned]
  split
  · rw [← record_turned, ← Cell.take_turned]
    rfl
  · rfl

@[simp] theorem writeIntent_turned (edit : CellEdit) (binding : Binding) (write : IntentWrite) :
    edit.turned.writeIntent binding write.turned = (edit.writeIntent binding write).turned := by
  rw [writeIntent, writeIntent, turned, Cell.occupant?_turned]
  cases edit.cell.occupant? binding.layer with
  | none => rfl
  | some occupant =>
    simp only [Option.map_some, Occupant.turned, IntentWrite.effect?_turned]
    split
    · cases write.effect? occupant.movement with
      | none => rfl
      | some effect =>
        obtain ⟨movement, kind⟩ := effect
        exact (congrArg (fun cell ↦ edit.turned.record cell _ _)
          (edit.cell.put_turned binding.layer ⟨occupant.object, movement⟩)).trans
          (edit.record_turned _ binding.object kind)
    · rfl

@[simp] theorem clear_turned (edit : CellEdit) (set : ObjectSet) :
    edit.turned.clear set = (edit.clear set).turned := by
  have hcleared : edit.turned.cell.occupants.filter (fun x ↦ set.contains x.2.object) =
      (edit.cell.occupants.filter fun x ↦ set.contains x.2.object).map
        fun x ↦ (x.1, x.2.turned) := by
    rw [turned, Cell.occupants_turned, List.filter_map]
    rfl
  rw [clear, clear]
  refine (congrArg (fun occupants ↦ List.foldl _ _ occupants) hcleared).trans ?_
  rw [List.foldl_map]
  refine List.foldl_hom turned ?_
  rintro edit ⟨layer, occupant⟩
  exact (congrArg (fun cell ↦ edit.turned.record cell _ _) (edit.cell.take_turned layer)).trans
    (edit.record_turned _ occupant.object .destroy)

@[simp] theorem place_turned (edit : CellEdit) (layer : LayerId) (spawn : Spawn) :
    edit.turned.place layer spawn.turned = (edit.place layer spawn).turned := by
  obtain ⟨object, movement⟩ := spawn
  have hput : edit.turned.cell.put layer ⟨object, movement.map Movement.turned⟩ =
      (edit.cell.put layer ⟨object, movement⟩).turned :=
    edit.cell.put_turned layer ⟨object, movement⟩
  have hocc : edit.turned.cell.occupant? layer =
      (edit.cell.occupant? layer).map Occupant.turned := edit.cell.occupant?_turned layer
  simp only [place, Spawn.turned, hput, hocc]
  cases edit.cell.occupant? layer with
  | none =>
    cases movement with
    | none => exact edit.record_turned _ object .create
    | some movement =>
      simp only [Option.map_some, ← record_turned, ChangeKind.turned]
      rfl
  | some previous =>
    cases movement with
    | none =>
      simp only [Option.map_some, ← record_turned, ChangeKind.turned, Occupant.turned]
      rfl
    | some movement =>
      simp only [Option.map_some, ← record_turned, ChangeKind.turned, Occupant.turned]

@[simp] theorem spawn_turned (game : Game) (edit : CellEdit) (spawn : Spawn) :
    edit.turned.spawn game spawn.turned = (edit.spawn game spawn).turned := by
  rw [CellEdit.spawn, CellEdit.spawn]
  cases htemplate : game.template? spawn.object with
  | none => simp only [Spawn.turned, htemplate]
  | some template =>
    simp only [Spawn.turned, htemplate, isInPlace_turned]
    split
    · cases spawn.movement with
      | none => rfl
      | some movement => exact edit.writeIntent_turned _ (.set movement)
    · exact edit.place_turned template.layer spawn

end CellEdit

/-! ## Rewriting -/

namespace RuleCell

variable (pattern : RuleCell) (bindings : List Binding)

theorem zip_requirements_turned : pattern.turned.requirements.zip bindings =
    (pattern.requirements.zip bindings).map fun x ↦ (x.1.turned, x.2) := List.zip_map_left

@[simp] theorem removeBound_turned (edit : CellEdit) :
    pattern.turned.removeBound bindings edit.turned =
      (pattern.removeBound bindings edit).turned := by
  rw [removeBound, removeBound, zip_requirements_turned, List.foldl_map]
  refine List.foldl_hom CellEdit.turned ?_
  rintro edit ⟨⟨objects, test, fate⟩, binding⟩
  cases fate with
  | keep write => rfl
  | remove => exact edit.remove_turned binding

@[simp] theorem writeKept_turned (edit : CellEdit) :
    pattern.turned.writeKept bindings edit.turned =
      (pattern.writeKept bindings edit).turned := by
  rw [writeKept, writeKept, zip_requirements_turned, List.foldl_map]
  refine List.foldl_hom CellEdit.turned ?_
  rintro edit ⟨⟨objects, test, fate⟩, binding⟩
  cases fate with
  | keep write => exact edit.writeIntent_turned binding write
  | remove => rfl

/-- **A turned cell is rewritten into the turned result.** -/
theorem rewrite_turned (game : Game) (cell : Cell) :
    pattern.turned.rewrite game cell.turned bindings =
      (pattern.rewrite game cell bindings).turned := by
  have hstart : (⟨cell.turned, []⟩ : CellEdit) = CellEdit.turned ⟨cell, []⟩ := rfl
  have hclears : ∀ edit : CellEdit, pattern.turned.clears.foldl CellEdit.clear edit.turned =
      (pattern.clears.foldl CellEdit.clear edit).turned := fun edit ↦
    List.foldl_hom CellEdit.turned CellEdit.clear_turned
  rw [rewrite, rewrite, hstart, removeBound_turned, writeKept_turned, hclears, turned,
    List.foldl_map]
  exact List.foldl_hom CellEdit.turned (CellEdit.spawn_turned game)

end RuleCell

theorem rewriteCells_turned (game : Game) (direction : Direction)
    (row : List (RuleCell × List Binding)) (position : Position) (board : Board) :
    rewriteCells game direction.turnLeft (row.map fun x ↦ (x.1.turned, x.2))
        (position.turned board.width) board.turned =
      ((rewriteCells game direction row position board).1.turned,
        (rewriteCells game direction row position board).2.map
          (CellChange.turned board.width)) := by
  induction row generalizing position board with
  | nil => rfl
  | cons first rest ih =>
    obtain ⟨pattern, bindings⟩ := first
    rw [List.map_cons, rewriteCells, rewriteCells, Board.cell?_turned, ← Position.turned_step]
    cases board.cell? position with
    | none => exact ih _ board
    | some cell =>
      simp only [Option.map_some, RuleCell.rewrite_turned, CellEdit.turned,
        Cell.turned_injective.eq_iff]
      split
      · exact ih _ board
      · -- the rest of the row is rewritten on a board of the same width
        have hrest := ih (position.step direction)
          (board.setCell position (pattern.rewrite game cell bindings).cell)
        rw [(Board.sameShape_setCell board position _).width, ← Board.setCell_turned] at hrest
        rw [hrest]
        rfl

/-- **A turned rule rewrites the turned board into the turned result**, and its record is the turned
record. -/
theorem Rule.rewrite_turned (rule : Rule) (game : Game) (board : Board) (origin : Position)
    (bindings : List (List Binding)) :
    rule.turned.rewrite game board.turned (origin.turned board.width) bindings =
      ((rule.rewrite game board origin bindings).1.turned,
        (rule.rewrite game board origin bindings).2.map (CellChange.turned board.width)) := by
  have hzip : rule.turned.cells.zip bindings =
      (rule.cells.zip bindings).map fun x ↦ (x.1.turned, x.2) := List.zip_map_left
  have hrow := rewriteCells_turned game rule.direction (rule.cells.zip bindings) origin board
  rw [rewrite, rewrite, hzip, show rule.turned.direction = rule.direction.turnLeft from rfl, hrow]
  simp only [labelTransfers_turned]

end TilePuzzle
