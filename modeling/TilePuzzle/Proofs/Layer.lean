import TilePuzzle.Proofs.Fit

/-!
# Exchanging a layer

Two boards that are the same but for one layer differ by a *graft*: the second is the first with
that layer taken from the second. In this way a statement about two boards becomes one about a board
and its graft, and a board keeps a layer exactly if it is a graft of its own earlier layer.

## Cells that fit

In a cell that fits a game, what stands on a layer is an object of that layer. Whoever asks for
other objects only does not notice when the layer is exchanged (`Fits.filter_occupants_setSlot`).
-/

namespace TilePuzzle

/-- What a slot of a layer may hold: nothing, or an object of the layer. -/
def Game.Admits (game : Game) (layer : LayerId) (slot : Option Occupant) : Prop :=
  ∀ occupant, slot = some occupant → game.layer? occupant.object = some layer

/-! ## Cells -/

namespace Cell

theorem setSlot_comm (cell : Cell) {layer other : LayerId} (h : other ≠ layer)
    (slot slot' : Option Occupant) :
    (cell.setSlot layer slot).setSlot other slot' =
      (cell.setSlot other slot').setSlot layer slot := by
  have hne : layer.index ≠ other.index := fun he ↦ h (LayerId.index_inj.mp he.symm)
  rw [setSlot, setSlot, setSlot, setSlot, List.set_comm slot slot' hne]

/-- A slot can be told from another cell with as many slots. -/
theorem occupant?_setSlot_occupant? {cell other : Cell} (layer : LayerId)
    (h : other.slots.length = cell.slots.length) :
    (cell.setSlot layer (other.occupant? layer)).occupant? layer = other.occupant? layer := by
  by_cases hlt : layer.index < cell.slots.length
  · exact occupant?_setSlot_self hlt _
  · rw [occupant?, occupant?, List.getElem?_eq_none (by rw [length_setSlot]; omega),
      List.getElem?_eq_none (by omega)]

/-- What looks past a place of a list does not notice what is written there. -/
theorem filterMap_zipIdx_set {α : Type} {f : Option Occupant × Nat → Option α} {place start : Nat}
    (hf : ∀ slot, f (slot, start + place) = none) (slots : List (Option Occupant))
    (slot : Option Occupant) :
    ((slots.set place slot).zipIdx start).filterMap f = (slots.zipIdx start).filterMap f := by
  induction slots generalizing place start with
  | nil => rfl
  | cons first rest ih =>
    cases place with
    | zero =>
      rw [Nat.add_zero] at hf
      rw [List.set_cons_zero, List.zipIdx_cons, List.zipIdx_cons,
        List.filterMap_cons_none (hf slot), List.filterMap_cons_none (hf first)]
    | succ place =>
      rw [List.set_cons_succ, List.zipIdx_cons, List.zipIdx_cons, List.filterMap_cons,
        List.filterMap_cons, ih fun slot ↦ by rw [Nat.add_right_comm]; exact hf slot]

theorem filter_occupants_setSlot {layer : LayerId} {p : LayerId × Occupant → Bool}
    (hp : ∀ occupant, p (layer, occupant) = false) (cell : Cell) (slot : Option Occupant) :
    (cell.setSlot layer slot).occupants.filter p = cell.occupants.filter p := by
  have hlayer : LayerId.ofIndex layer.index = layer :=
    LayerId.index_inj.mp (LayerId.index_ofIndex layer.code.toNat_lt)
  rw [occupants, occupants, List.filter_filterMap, List.filter_filterMap, setSlot]
  refine filterMap_zipIdx_set (fun slot ↦ ?_) cell.slots slot
  cases slot with
  | none => rfl
  | some occupant =>
    simp only [Nat.zero_add, Option.map_some, hlayer]
    exact Option.filter_some_neg (hp occupant)

variable {game : Game} {cell : Cell} {layer : LayerId} {slot : Option Occupant}

theorem Fits.filter_occupants_setSlot (hcell : cell.Fits game) (hgame : game.IsLayered)
    (hslot : game.Admits layer slot) {p : Occupant → Bool}
    (hp : ∀ occupant, game.layer? occupant.object = some layer → p occupant = false) :
    (cell.setSlot layer slot).occupants.filter (fun x ↦ p x.2) =
      cell.occupants.filter fun x ↦ p x.2 := by
  have hpast : ∀ cell : Cell, cell.Fits game →
      (cell.occupants.filter fun x ↦ p x.2) =
        cell.occupants.filter fun x ↦ x.1 ≠ layer && p x.2 := by
    intro cell hcell
    refine List.filter_congr ?_
    rintro ⟨other, occupant⟩ hmem
    by_cases hother : other = layer
    · have hocc := (mem_occupants (hcell.length_le hgame)).mp hmem
      rw [hp occupant (hother ▸ hcell.layer?_eq other occupant hocc), Bool.and_false]
    · simp [hother]
  rw [hpast _ (hcell.setSlot hslot), hpast cell hcell]
  exact Cell.filter_occupants_setSlot (fun occupant ↦ by simp) cell slot

end Cell

/-! ## Boards -/

namespace Board

/-- What stands on a layer in a place of the board. -/
def slot? (board : Board) (layer : LayerId) (place : Nat) : Option Occupant :=
  board.cells[place]?.bind fun cell ↦ cell.occupant? layer

/-- A board with one layer taken from another board, which also tells the level. -/
def graft (layer : LayerId) (source board : Board) : Board where
  index := source.index
  width := board.width
  height := board.height
  cells := board.cells.mapIdx fun place cell ↦ cell.setSlot layer (source.slot? layer place)
  size_cells := by rw [Array.size_mapIdx, board.size_cells]

/-- Two boards of one size that are the same once a layer is emptied. -/
structure AgreesOff (layer : LayerId) (board board' : Board) : Prop where
  width : board'.width = board.width
  height : board'.height = board.height
  cells : board'.cells.map (fun cell ↦ cell.take layer) =
    board.cells.map fun cell ↦ cell.take layer

/-- Two boards of one level and one size that have the same on a layer. -/
structure AgreesOn (layer : LayerId) (board board' : Board) : Prop where
  shape : board.SameShape board'
  cells : board'.cells.map (fun cell ↦ cell.occupant? layer) =
    board.cells.map fun cell ↦ cell.occupant? layer

instance (layer : LayerId) (board board' : Board) : Decidable (AgreesOff layer board board') :=
  decidable_of_iff (board'.width = board.width ∧ board'.height = board.height ∧
      board'.cells.map (fun cell ↦ cell.take layer) = board.cells.map fun cell ↦ cell.take layer)
    ⟨fun h ↦ ⟨h.1, h.2.1, h.2.2⟩, fun h ↦ ⟨h.width, h.height, h.cells⟩⟩

variable {layer : LayerId} {source board board' : Board}

@[simp] theorem contains_graft (layer : LayerId) (source board : Board) (position : Position) :
    (graft layer source board).contains position = board.contains position := rfl

theorem getElem?_cells_graft (layer : LayerId) (source board : Board) (place : Nat) :
    (graft layer source board).cells[place]? =
      board.cells[place]?.map fun cell ↦ cell.setSlot layer (source.slot? layer place) :=
  Array.getElem?_mapIdx

theorem getElem?_cells_mapCells (f : Cell → Cell) (board : Board) (place : Nat) :
    (board.mapCells f).cells[place]? = board.cells[place]?.map f := Array.getElem?_map

/-! ## Two boards -/

theorem agreesOff_graft (layer : LayerId) (source board : Board) :
    AgreesOff layer board (graft layer source board) where
  width := rfl
  height := rfl
  cells := by
    refine Array.ext_getElem? fun place ↦ ?_
    rw [Array.getElem?_map, getElem?_cells_graft, Array.getElem?_map, Option.map_map]
    congr 1
    exact funext fun cell ↦ cell.setSlot_setSlot layer _ none

/-- **Boards that agree off a layer differ by a graft.** -/
theorem AgreesOff.eq_graft (h : AgreesOff layer board board') :
    board' = graft layer board' board := by
  refine eq_of_cells rfl h.width h.height (Array.ext_getElem? fun place ↦ ?_)
  have hplace := congrArg (fun cells : Array Cell ↦ cells[place]?) h.cells
  simp only [Array.getElem?_map] at hplace
  rw [getElem?_cells_graft, slot?]
  cases hcell : board.cells[place]? with
  | none =>
    rw [hcell, Option.map_none, Option.map_eq_none_iff] at hplace
    rw [hplace]
    rfl
  | some cell =>
    rw [hcell, Option.map_some, Option.map_eq_some_iff] at hplace
    obtain ⟨cell', hcell', htake⟩ := hplace
    rw [hcell', Option.map_some, Option.bind_some, ← cell.setSlot_setSlot layer none]
    -- the emptied cells are the same, and the layer is put back
    change some cell' = some ((cell.take layer).setSlot layer (cell'.occupant? layer))
    rw [← htake, Cell.take, Cell.setSlot_setSlot, Cell.setSlot_occupant?]

@[simp] theorem graft_self (layer : LayerId) (board : Board) : graft layer board board = board :=
  (AgreesOff.eq_graft ⟨rfl, rfl, rfl⟩).symm

theorem agreesOn_graft {game : Game} (hsource : source.Fits game) (hboard : board.Fits game)
    (hwidth : source.width = board.width) (hheight : source.height = board.height) :
    AgreesOn layer source (graft layer source board) where
  shape := ⟨rfl, hwidth.symm, hheight.symm⟩
  cells := by
    refine Array.ext_getElem? fun place ↦ ?_
    rw [Array.getElem?_map, getElem?_cells_graft, Array.getElem?_map, Option.map_map, slot?]
    have hsize : source.cells.size = board.cells.size := by
      rw [source.size_cells, board.size_cells, hwidth, hheight]
    by_cases hlt : place < board.cells.size
    · rw [Array.getElem?_eq_getElem hlt, Array.getElem?_eq_getElem (hsize ▸ hlt), Option.map_some,
        Option.map_some, Option.bind_some]
      refine congrArg some (Cell.occupant?_setSlot_occupant? layer ?_)
      rw [(hsource _ (Array.getElem_mem _)).length_slots,
        (hboard _ (Array.getElem_mem _)).length_slots]
    · rw [Array.getElem?_eq_none (by omega), Array.getElem?_eq_none (by omega)]
      rfl

/-! ## Reading and writing a graft -/

theorem Fits.admits_slot? {game : Game} (hsource : source.Fits game) (layer : LayerId)
    (place : Nat) : game.Admits layer (source.slot? layer place) := by
  intro occupant h
  obtain ⟨cell, hcell, hocc⟩ := Option.bind_eq_some_iff.mp h
  exact (hsource cell (Array.mem_of_getElem? hcell)).layer?_eq layer occupant hocc

theorem cell?_graft (layer : LayerId) (source board : Board) (position : Position) :
    (graft layer source board).cell? position = (board.cell? position).map fun cell ↦
      cell.setSlot layer (source.slot? layer (board.place position)) := by
  by_cases h : board.contains position = true
  · rw [cell?_of_contains h, cell?_of_contains (contains_graft layer source board _ ▸ h)]
    exact getElem?_cells_graft layer source board _
  · simp [cell?, h]

theorem graft_setCell (layer : LayerId) (source board : Board) (position : Position)
    (cell : Cell) :
    graft layer source (board.setCell position cell) = (graft layer source board).setCell position
      (cell.setSlot layer (source.slot? layer (board.place position))) := by
  by_cases h : board.contains position = true
  · rw [setCell, if_pos h, setCell, contains_graft, if_pos h]
    exact eq_of_cells rfl rfl rfl Array.mapIdx_setIfInBounds
  · rw [setCell_of_not_contains h,
      setCell_of_not_contains (contains_graft layer source board position ▸ h)]

theorem Fits.graft {game : Game} (hboard : board.Fits game) (hsource : source.Fits game) :
    (graft layer source board).Fits game := by
  intro cell hcell
  obtain ⟨place, hlt, rfl⟩ := Array.mem_mapIdx.mp hcell
  exact (hboard _ (Array.getElem_mem hlt)).setSlot (hsource.admits_slot? layer place)

@[simp] theorem slot?_mapCells (f : Occupant → Occupant) (board : Board) (layer : LayerId)
    (place : Nat) : (board.mapCells (Cell.mapOccupants f)).slot? layer place =
      (board.slot? layer place).map f := by
  rw [slot?, slot?, getElem?_cells_mapCells]
  cases board.cells[place]? with
  | none => rfl
  | some cell => exact Cell.occupant?_mapOccupants f cell layer

theorem mapCells_graft (f : Occupant → Occupant) (layer : LayerId) (source board : Board) :
    (graft layer source board).mapCells (Cell.mapOccupants f) =
      graft layer (source.mapCells (Cell.mapOccupants f))
        (board.mapCells (Cell.mapOccupants f)) := by
  refine eq_of_cells rfl rfl rfl (Array.ext_getElem? fun place ↦ ?_)
  rw [getElem?_cells_mapCells, getElem?_cells_graft, getElem?_cells_graft, getElem?_cells_mapCells,
    Option.map_map, Option.map_map, slot?_mapCells]
  congr 1
  exact funext fun cell ↦ cell.mapOccupants_setSlot f layer _

theorem settle_graft (layer : LayerId) (source board : Board) :
    (graft layer source board).settle = graft layer source.settle board.settle :=
  mapCells_graft ..

theorem mark_graft (layer : LayerId) (source board : Board) (set : ObjectSet)
    (movement : Movement) : (graft layer source board).mark set movement =
      graft layer (source.mark set movement) (board.mark set movement) := mapCells_graft ..

end Board

end TilePuzzle
