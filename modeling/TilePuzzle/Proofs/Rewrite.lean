import TilePuzzle.Rule.Rewrite
import TilePuzzle.Proofs.Replay

/-!
# A rewriting tells what it does

Every edit of a cell is made of three kinds of change: an occupant is taken out, a write gives or
takes an intent, and an object comes into an empty slot. Each of them is written down when it is
made.

## The invariant

At any moment the changes of an edit, replayed on the cell that it began with, lead to the present
cell. `CellEdit.Tells` is that invariant; it holds of every step of a rewriting, whatever the
bindings are, and carries over from cells to rows of cells and to rules.

Each of the three kinds of change has its lemma, and every operation of a rewriting is put together
from them. Placing an object is the one that does more than it seems: it vacates the layer, creates
the object there and gives it its intent (`place_eq`).
-/

namespace TilePuzzle

/-! ## Several changes of one cell -/

namespace Cell

/-- Makes a change of an object of the game, if it fits the cell. -/
def replayChange? (game : Game) (cell : Cell) (change : Change) : Option Cell := do
  let layer ← game.layer? change.object
  cell.replay? layer change

/-- Makes changes one after the other, as long as they fit. -/
def replayAll? (game : Game) (cell : Cell) (changes : List Change) : Option Cell :=
  changes.foldlM (replayChange? game) cell

end Cell

/-- Changes of one cell, replayed on a board, rewrite just that cell. -/
theorem Board.replay?_of_replayAll? {game : Game} {board : Board} {position : Position}
    {cell cell' : Cell} {changes : List Change} (hcell : board.cell? position = some cell)
    (h : cell.replayAll? game changes = some cell') :
    board.replay? game (changes.map fun change ↦ (position, change)) =
      some (board.setCell position cell') := by
  induction changes generalizing board cell with
  | nil =>
    obtain rfl : cell = cell' := Option.some.inj h
    rw [setCell_eq_self hcell]
    rfl
  | cons change changes ih =>
    rw [Cell.replayAll?, List.foldlM_cons] at h
    obtain ⟨mid, hmid, h⟩ := Option.bind_eq_some_iff.mp h
    obtain ⟨layer, hlayer, hmid⟩ := Option.bind_eq_some_iff.mp hmid
    have hstep : board.replayChange? game (position, change) = some (board.setCell position mid) :=
      replayChange?_eq_some_iff.mpr ⟨layer, cell, mid, hlayer, hcell, hmid, rfl⟩
    have hmid' := cell?_setCell_self (contains_of_cell? hcell) mid
    simp [replay?_cons, hstep, ih hmid' h]

/-! ## The invariant of an edit -/

namespace CellEdit

/-- The changes written down lead from the cell that the edit began with to the present cell. -/
structure Tells (game : Game) (start : Cell) (edit : CellEdit) : Prop where
  replayAll?_eq : start.replayAll? game edit.changes = some edit.cell
  fits : edit.cell.Fits game

variable {game : Game} {start : Cell} {edit : CellEdit} {layer : LayerId} {occupant : Occupant}

theorem tells_start (h : start.Fits game) : Tells game start ⟨start, []⟩ := ⟨rfl, h⟩

theorem Tells.record (h : edit.Tells game start) {object : ObjectId} {kind : ChangeKind}
    {cell : Cell} (hlayer : game.layer? object = some layer)
    (hcell : edit.cell.replay? layer ⟨object, kind⟩ = some cell) :
    (edit.record cell object kind).Tells game start where
  replayAll?_eq := by
    rw [CellEdit.record, Cell.replayAll?, List.foldlM_append, ← Cell.replayAll?, h.replayAll?_eq]
    have hstep : edit.cell.replayChange? game ⟨object, kind⟩ = some cell := by
      rw [Cell.replayChange?, hlayer]
      exact hcell
    simpa using hstep
  fits := h.fits.replay? hlayer hcell

/-! ## The three kinds of change -/

theorem Tells.takeOut (h : edit.Tells game start)
    (hocc : edit.cell.occupant? layer = some occupant) :
    (edit.record (edit.cell.take layer) occupant.object .destroy).Tells game start :=
  h.record (h.fits.layer?_eq layer occupant hocc) (Cell.replay?_of_removal rfl hocc rfl)

theorem Tells.writeMove (h : edit.Tells game start)
    (hocc : edit.cell.occupant? layer = some occupant) (movement : Movement) :
    (edit.record (edit.cell.put layer ⟨occupant.object, some movement⟩) occupant.object
      (.move movement)).Tells game start :=
  h.record (h.fits.layer?_eq layer occupant hocc) (Cell.replay?_of_write rfl rfl hocc rfl)

theorem Tells.writeStationary (h : edit.Tells game start)
    (hocc : edit.cell.occupant? layer = some occupant) :
    (edit.record (edit.cell.put layer ⟨occupant.object, none⟩) occupant.object
      .stationary).Tells game start :=
  h.record (h.fits.layer?_eq layer occupant hocc) (Cell.replay?_of_write rfl rfl hocc rfl)

theorem Tells.create (h : edit.Tells game start) (hgame : game.IsLayered) {object : ObjectId}
    (hlayer : game.layer? object = some layer) (hempty : edit.cell.occupant? layer = none) :
    (edit.record (edit.cell.put layer (.still object)) object .create).Tells game start :=
  h.record hlayer (Cell.replay?_of_placement rfl hempty (h.fits.layer_lt hgame hlayer))

/-! ## The edits of a rewriting -/

theorem isInPlace_iff {binding : Binding} : edit.isInPlace binding = true ↔
    ∃ occupant, edit.cell.occupant? binding.layer = some occupant ∧
      occupant.object = binding.object := by
  simp [isInPlace]

theorem Tells.remove (h : edit.Tells game start) (binding : Binding) :
    (edit.remove binding).Tells game start := by
  rw [CellEdit.remove]
  split
  · next hplace =>
    obtain ⟨occupant, hocc, hobject⟩ := isInPlace_iff.mp hplace
    rw [← hobject]
    exact h.takeOut hocc
  · exact h

theorem Tells.writeIntent (h : edit.Tells game start) (binding : Binding) (write : IntentWrite) :
    (edit.writeIntent binding write).Tells game start := by
  rw [CellEdit.writeIntent]
  cases hocc : edit.cell.occupant? binding.layer with
  | none => exact h
  | some occupant =>
    dsimp only
    split
    · next hobject =>
      rw [← hobject]
      cases write with
      | unchanged => exact h
      | clear =>
        cases hmove : occupant.movement with
        | none => exact h
        | some movement => exact h.writeStationary hocc
      | set movement =>
        by_cases hmove : occupant.movement = some movement
        · simp only [IntentWrite.effect?, if_pos hmove]
          exact h
        · simp only [IntentWrite.effect?, if_neg hmove]
          exact h.writeMove hocc movement
    · exact h

theorem Tells.takeOutAll (h : edit.Tells game start) {occupants : List (LayerId × Occupant)}
    (hdistinct : occupants.Pairwise fun a b ↦ a.1 ≠ b.1)
    (hmem : ∀ x ∈ occupants, edit.cell.occupant? x.1 = some x.2) :
    (occupants.foldl (fun edit (layer, occupant) ↦
      edit.record (edit.cell.take layer) occupant.object .destroy) edit).Tells game start := by
  induction occupants generalizing edit with
  | nil => exact h
  | cons first rest ih =>
    rw [List.pairwise_cons] at hdistinct
    rw [List.foldl_cons]
    refine ih (h.takeOut (hmem first List.mem_cons_self)) hdistinct.2 fun x hx ↦ ?_
    -- the other occupants are on other layers and still in place
    have hne : (edit.cell.take first.1).occupant? x.1 = edit.cell.occupant? x.1 :=
      Cell.occupant?_setSlot_ne (hdistinct.1 x hx).symm none
    exact hne.trans (hmem x (List.mem_cons_of_mem first hx))

theorem Tells.clear (h : edit.Tells game start) (hgame : game.IsLayered) (set : ObjectSet) :
    (edit.clear set).Tells game start := by
  have hlength := h.fits.length_le hgame
  refine h.takeOutAll ((Cell.pairwise_occupants hlength).filter _) fun x hx ↦ ?_
  exact (Cell.mem_occupants hlength).mp (List.mem_filter.mp hx).1

/-- A layer is emptied, if there is anything to take out. -/
def vacate (edit : CellEdit) (layer : LayerId) : CellEdit :=
  match edit.cell.occupant? layer with
  | none => edit
  | some previous => edit.record (edit.cell.take layer) previous.object .destroy

theorem Tells.vacate (h : edit.Tells game start) (layer : LayerId) :
    (edit.vacate layer).Tells game start := by
  rw [CellEdit.vacate]
  cases hocc : edit.cell.occupant? layer with
  | none => exact h
  | some previous => exact h.takeOut hocc

@[simp] theorem occupant?_vacate (edit : CellEdit) (layer : LayerId) :
    (edit.vacate layer).cell.occupant? layer = none := by
  rw [vacate]
  cases hocc : edit.cell.occupant? layer with
  | none => exact hocc
  | some previous => exact Cell.occupant?_take_self

/-- Placing an object is vacating its layer, creating it there and giving it its intent. -/
theorem place_eq (edit : CellEdit) (layer : LayerId) (spawn : Spawn) :
    edit.place layer spawn =
      let created := (edit.vacate layer).record
        ((edit.vacate layer).cell.put layer (.still spawn.object)) spawn.object .create
      match spawn.movement with
      | none => created
      | some movement =>
        created.record (created.cell.put layer ⟨spawn.object, some movement⟩) spawn.object
          (.move movement) := by
  -- the cell is written once in the one form and step by step in the other
  obtain ⟨object, movement⟩ := spawn
  rw [place, vacate]
  cases edit.cell.occupant? layer with
  | none =>
    cases movement with
    | none => rfl
    | some movement => simp only [record, Cell.put_put]
  | some previous =>
    cases movement with
    | none => simp only [record, Cell.put_take]; rfl
    | some movement => simp only [record, Cell.put_take, Cell.put_put]

theorem Tells.place (h : edit.Tells game start) (hgame : game.IsLayered) {spawn : Spawn}
    (hlayer : game.layer? spawn.object = some layer) :
    (edit.place layer spawn).Tells game start := by
  have hcreated := (h.vacate layer).create hgame hlayer (occupant?_vacate edit layer)
  have hlt := (h.vacate layer).fits.layer_lt hgame hlayer
  rw [place_eq]
  cases spawn.movement with
  | none => exact hcreated
  | some movement => exact hcreated.writeMove (Cell.occupant?_setSlot_self hlt _) movement

theorem Tells.spawn (h : edit.Tells game start) (hgame : game.IsLayered) (spawn : Spawn) :
    (edit.spawn game spawn).Tells game start := by
  rw [CellEdit.spawn]
  cases htemplate : game.template? spawn.object with
  | none => exact h
  | some template =>
    dsimp only
    split
    · cases spawn.movement with
      | none => exact h
      | some movement => exact h.writeIntent _ _
    · exact h.place hgame (Game.layer?_of_template? htemplate)

end CellEdit

/-! ## Rewriting cells and rules -/

namespace RuleCell

/-- A cell that is being rewritten, before anything is spawned. -/
def beforeSpawns (pattern : RuleCell) (cell : Cell) (bindings : List Binding) : CellEdit :=
  pattern.clears.foldl CellEdit.clear
    (pattern.writeKept bindings (pattern.removeBound bindings ⟨cell, []⟩))

theorem rewrite_eq (pattern : RuleCell) (game : Game) (cell : Cell) (bindings : List Binding) :
    pattern.rewrite game cell bindings =
      pattern.spawns.foldl (CellEdit.spawn game) (pattern.beforeSpawns cell bindings) := rfl

variable {game : Game} {cell : Cell} {edit : CellEdit}

theorem tells_removeBound (h : edit.Tells game cell) (pattern : RuleCell)
    (bindings : List Binding) : (pattern.removeBound bindings edit).Tells game cell := by
  refine List.foldlRecOn (motive := CellEdit.Tells game cell) _ _ h ?_
  rintro before hbefore ⟨requirement, binding⟩ -
  cases hfate : requirement.fate with
  | keep write => simpa [hfate] using hbefore
  | remove => simpa [hfate] using hbefore.remove binding

theorem tells_writeKept (h : edit.Tells game cell) (pattern : RuleCell)
    (bindings : List Binding) : (pattern.writeKept bindings edit).Tells game cell := by
  refine List.foldlRecOn (motive := CellEdit.Tells game cell) _ _ h ?_
  rintro before hbefore ⟨requirement, binding⟩ -
  cases hfate : requirement.fate with
  | keep write => simpa [hfate] using hbefore.writeIntent binding write
  | remove => simpa [hfate] using hbefore

theorem tells_beforeSpawns (hgame : game.IsLayered) (pattern : RuleCell) (hcell : cell.Fits game)
    (bindings : List Binding) : (pattern.beforeSpawns cell bindings).Tells game cell := by
  have hstart := pattern.tells_removeBound (CellEdit.tells_start hcell) bindings
  exact List.foldlRecOn (motive := CellEdit.Tells game cell) pattern.clears _
    (pattern.tells_writeKept hstart bindings) fun _ hbefore set _ ↦ hbefore.clear hgame set

/-- **A rewritten cell tells what was done to it**, whatever the requirements are bound to. -/
theorem tells_rewrite (hgame : game.IsLayered) (pattern : RuleCell) (hcell : cell.Fits game)
    (bindings : List Binding) : (pattern.rewrite game cell bindings).Tells game cell := by
  rw [rewrite_eq]
  exact List.foldlRecOn (motive := CellEdit.Tells game cell) pattern.spawns _
    (pattern.tells_beforeSpawns hgame hcell bindings)
    fun _ hbefore spawn _ ↦ hbefore.spawn hgame spawn

end RuleCell

theorem replay?_rewriteCells {game : Game} (hgame : game.IsLayered) (direction : Direction)
    (row : List (RuleCell × List Binding)) (position : Position) {board : Board}
    (hboard : board.Fits game) :
    board.replay? game (CellChange.placed (rewriteCells game direction row position board).2) =
      some (rewriteCells game direction row position board).1 := by
  induction row generalizing position board with
  | nil => rfl
  | cons first rest ih =>
    obtain ⟨pattern, bindings⟩ := first
    rw [rewriteCells]
    cases hcell : board.cell? position with
    | none => exact ih _ hboard
    | some cell =>
      have htells := pattern.tells_rewrite hgame (hboard.cell? hcell) bindings
      dsimp only
      split
      · exact ih _ hboard
      · -- the rest of the row is rewritten on the board that has the new cell already
        have hfirst := Board.replay?_of_replayAll? hcell htells.replayAll?_eq
        have hrest := ih (position.step direction) (hboard.setCell position htells.fits)
        exact Board.replay?_append_of hfirst hrest

theorem contains_of_mem_rewriteCells {game : Game} {direction : Direction}
    {row : List (RuleCell × List Binding)} {position : Position} {board : Board}
    {change : CellChange} (h : change ∈ (rewriteCells game direction row position board).2) :
    board.contains change.position = true := by
  induction row generalizing position board with
  | nil => exact absurd h List.not_mem_nil
  | cons first rest ih =>
    obtain ⟨pattern, bindings⟩ := first
    rw [rewriteCells] at h
    cases hcell : board.cell? position with
    | none =>
      rw [hcell] at h
      exact ih h
    | some cell =>
      rw [hcell] at h
      dsimp only at h
      split at h
      · exact ih h
      · rcases List.mem_cons.mp h with rfl | h
        · exact Board.contains_of_cell? hcell
        · rw [← (Board.sameShape_setCell board position _).contains]
          exact ih h

theorem Rule.contains_of_mem_rewrite {game : Game} {rule : Rule} {board : Board}
    {origin : Position} {bindings : List (List Binding)} {change : CellChange}
    (h : change ∈ (rule.rewrite game board origin bindings).2) :
    board.contains change.position = true := by
  obtain ⟨before, hbefore, rfl⟩ := List.mem_map.mp h
  have hposition := contains_of_mem_rewriteCells hbefore
  exact hposition

/-- **The record of a firing replays** to the board that it leaves. -/
theorem Rule.replay?_rewrite {game : Game} (hgame : game.IsLayered) (rule : Rule) {board : Board}
    (hboard : board.Fits game) (origin : Position) (bindings : List (List Binding)) :
    board.replay? game (CellChange.placed (rule.rewrite game board origin bindings).2) =
      some (rule.rewrite game board origin bindings).1 := by
  rw [Rule.rewrite, Board.replay?_labelTransfers]
  exact replay?_rewriteCells hgame rule.direction _ origin hboard

theorem Rule.rewrite_eq_self {game : Game} (hgame : game.IsLayered) (rule : Rule) {board : Board}
    (hboard : board.Fits game) (origin : Position) (bindings : List (List Binding))
    (h : (rule.rewrite game board origin bindings).2 = []) :
    (rule.rewrite game board origin bindings).1 = board := by
  have hreplay := rule.replay?_rewrite hgame hboard origin bindings
  rw [h] at hreplay
  exact (Option.some.inj hreplay).symm

end TilePuzzle
