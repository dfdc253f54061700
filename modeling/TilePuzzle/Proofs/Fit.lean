import TilePuzzle.Game
import TilePuzzle.Proofs.Board

/-!
# Boards that fit a game

A board *fits* a game when each of its cells has a slot for every layer and each occupant stands on
the layer of its own object; in particular every occupant is an object of the game. A board is
*still* when no occupant carries an intent.

## What keeps them

Both are invariants of whole turns. What a game must offer for them to be kept is little: its
objects must have layers that its boards have slots for (`Game.IsLayered`). A single edit keeps a
cell fitting if what it writes into a slot is nothing or an object of that layer, so of a rewriting
only the spawned objects have to be known. Intents are written freely while a turn runs, and
settling takes them away in the end.
-/

namespace TilePuzzle

/-! ## Layers of a game -/

/-- The layer of an object of the game. -/
def Game.layer? (game : Game) (object : ObjectId) : Option LayerId :=
  (game.template? object).map Template.layer

/-- Every object has a layer, and sixteen-bit numbers tell the layers apart. -/
structure Game.IsLayered (game : Game) : Prop where
  layerCount_le : game.layerCount ≤ LayerId.bound
  layer_lt : ∀ object layer, game.layer? object = some layer → layer.index < game.layerCount

theorem Game.layer?_of_template? {game : Game} {object : ObjectId} {template : Template}
    (h : game.template? object = some template) : game.layer? object = some template.layer := by
  rw [Game.layer?, h]
  rfl

theorem Game.template?_of_layer? {game : Game} {object : ObjectId} {layer : LayerId}
    (h : game.layer? object = some layer) :
    ∃ template, game.template? object = some template ∧ template.layer = layer :=
  Option.map_eq_some_iff.mp h

/-! ## Cells -/

namespace Cell

/-- The cell has a slot for every layer, and every occupant stands on its own object's layer. -/
structure Fits (game : Game) (cell : Cell) : Prop where
  length_slots : cell.slots.length = game.layerCount
  layer?_eq : ∀ layer occupant, cell.occupant? layer = some occupant →
    game.layer? occupant.object = some layer

/-- No occupant carries an intent. -/
def IsStill (cell : Cell) : Prop :=
  ∀ occupant, some occupant ∈ cell.slots → occupant.movement = none

variable {game : Game} {cell : Cell}

theorem Fits.setSlot (h : cell.Fits game) {layer : LayerId} {slot : Option Occupant}
    (hslot : ∀ occupant, slot = some occupant → game.layer? occupant.object = some layer) :
    (cell.setSlot layer slot).Fits game where
  length_slots := by rw [length_setSlot, h.length_slots]
  layer?_eq other occupant hother := by
    rcases occupant?_setSlot_eq_some hother with ⟨rfl, hslot'⟩ | hbefore
    · exact hslot occupant hslot'
    · exact h.layer?_eq other occupant hbefore

theorem Fits.take (h : cell.Fits game) (layer : LayerId) : (cell.take layer).Fits game :=
  h.setSlot fun _ hnone ↦ absurd hnone (by simp)

theorem Fits.put (h : cell.Fits game) {layer : LayerId} {occupant : Occupant}
    (hlayer : game.layer? occupant.object = some layer) : (cell.put layer occupant).Fits game :=
  h.setSlot fun _ hsome ↦ Option.some.inj hsome ▸ hlayer

theorem Fits.mapOccupants (h : cell.Fits game) {f : Occupant → Occupant}
    (hf : ∀ occupant, (f occupant).object = occupant.object) :
    (cell.mapOccupants f).Fits game where
  length_slots := by rw [length_mapOccupants, h.length_slots]
  layer?_eq layer occupant hocc := by
    rw [occupant?_mapOccupants] at hocc
    obtain ⟨before, hbefore, rfl⟩ := Option.map_eq_some_iff.mp hocc
    rw [hf]
    exact h.layer?_eq layer before hbefore

theorem Fits.settle (h : cell.Fits game) : cell.settle.Fits game := h.mapOccupants fun _ ↦ rfl

theorem Fits.mark (h : cell.Fits game) (set : ObjectSet) (movement : Movement) :
    (cell.mark set movement).Fits game :=
  h.mapOccupants fun occupant ↦ by split <;> rfl

theorem Fits.layer_lt (h : cell.Fits game) (hgame : game.IsLayered) {object : ObjectId}
    {layer : LayerId} (hlayer : game.layer? object = some layer) :
    layer.index < cell.slots.length := by
  rw [h.length_slots]
  exact hgame.layer_lt object layer hlayer

theorem Fits.length_le (h : cell.Fits game) (hgame : game.IsLayered) :
    cell.slots.length ≤ LayerId.bound := by
  rw [h.length_slots]
  exact hgame.layerCount_le

theorem fits_blank (game : Game) : (Cell.blank game.layerCount).Fits game where
  length_slots := List.length_replicate
  layer?_eq layer occupant h := by
    rw [occupant?_eq_some_iff, blank, List.getElem?_replicate] at h
    split at h <;> simp at h

theorem settle_eq_self (h : cell.IsStill) : cell.settle = cell := by
  rw [settle_eq, mapOccupants]
  refine congrArg Cell.mk ((List.map_congr_left fun slot hslot ↦ ?_).trans (List.map_id _))
  cases slot with
  | none => rfl
  | some occupant => exact congrArg some (Occupant.settle_eq_self (h occupant hslot))

theorem isStill_settle (cell : Cell) : cell.settle.IsStill := by
  intro occupant h
  obtain ⟨slot, -, hslot⟩ := List.mem_map.mp h
  obtain ⟨before, -, rfl⟩ := Option.map_eq_some_iff.mp hslot
  rfl

theorem isStill_blank (layerCount : Nat) : (Cell.blank layerCount).IsStill := fun _ h ↦
  absurd (List.eq_of_mem_replicate h) (by simp)

theorem IsStill.put_still (h : cell.IsStill) (layer : LayerId) (object : ObjectId) :
    (cell.put layer (.still object)).IsStill := by
  intro occupant hocc
  rcases List.mem_or_eq_of_mem_set hocc with hbefore | heq
  · exact h occupant hbefore
  · cases heq
    rfl

end Cell

/-! ## Boards -/

namespace Board

/-- Every cell fits the game. -/
def Fits (game : Game) (board : Board) : Prop := ∀ cell ∈ board.cells, cell.Fits game

/-- No occupant of the board carries an intent. -/
def IsStill (board : Board) : Prop := ∀ cell ∈ board.cells, cell.IsStill

variable {game : Game} {board : Board}

theorem Fits.cell? (h : board.Fits game) {position : Position} {cell : Cell}
    (hcell : board.cell? position = some cell) : cell.Fits game :=
  h cell (mem_cells_of_cell? hcell)

theorem Fits.map_length_slots (h : board.Fits game) :
    board.cells.map (fun cell ↦ cell.slots.length) =
      .replicate (board.width * board.height) game.layerCount := by
  rw [Array.eq_replicate_iff, Array.size_map, board.size_cells]
  refine ⟨rfl, fun length hlength ↦ ?_⟩
  obtain ⟨cell, hcell, rfl⟩ := Array.mem_map.mp hlength
  exact (h cell hcell).length_slots

theorem Fits.setCell (h : board.Fits game) (position : Position) {cell : Cell}
    (hcell : cell.Fits game) : (board.setCell position cell).Fits game := by
  intro c hc
  rcases mem_cells_setCell hc with rfl | hc
  · exact hcell
  · exact h c hc

theorem Fits.mapCells (h : board.Fits game) {f : Cell → Cell}
    (hf : ∀ cell : Cell, cell.Fits game → (f cell).Fits game) : (board.mapCells f).Fits game := by
  intro c hc
  obtain ⟨cell, hcell, rfl⟩ := Array.mem_map.mp hc
  exact hf cell (h cell hcell)

theorem Fits.settle (h : board.Fits game) : board.settle.Fits game :=
  h.mapCells fun _ hcell ↦ hcell.settle

theorem Fits.mark (h : board.Fits game) (set : ObjectSet) (movement : Movement) :
    (board.mark set movement).Fits game :=
  h.mapCells fun _ hcell ↦ hcell.mark set movement

theorem fits_blank (game : Game) (index width height : Nat) :
    (blank index width height game.layerCount).Fits game := fun _ h ↦
  Array.eq_of_mem_replicate h ▸ Cell.fits_blank game

theorem IsStill.setCell (h : board.IsStill) (position : Position) {cell : Cell}
    (hcell : cell.IsStill) : (board.setCell position cell).IsStill := by
  intro c hc
  rcases mem_cells_setCell hc with rfl | hc
  · exact hcell
  · exact h c hc

theorem IsStill.mapCells (h : board.IsStill) {f : Cell → Cell}
    (hf : ∀ cell : Cell, cell.IsStill → (f cell).IsStill) : (board.mapCells f).IsStill := by
  intro c hc
  obtain ⟨cell, hcell, rfl⟩ := Array.mem_map.mp hc
  exact hf cell (h cell hcell)

theorem isStill_blank (index width height layerCount : Nat) :
    (blank index width height layerCount).IsStill := fun _ h ↦
  Array.eq_of_mem_replicate h ▸ Cell.isStill_blank layerCount

theorem settle_eq_self (h : board.IsStill) : board.settle = board := by
  refine eq_of_cells rfl rfl rfl ?_
  refine (Array.map_congr_left fun cell hcell ↦ ?_).trans (Array.map_id _)
  exact Cell.settle_eq_self (h cell hcell)

theorem isStill_settle (board : Board) : board.settle.IsStill := by
  intro c hc
  obtain ⟨cell, -, rfl⟩ := Array.mem_map.mp hc
  exact Cell.isStill_settle cell

end Board

end TilePuzzle
