import TilePuzzle.Proofs.Cell

/-!
# The cells of a board

The same for boards as for cells: what an edit does to the shape of a board and to what can be read
from it.

## Shapes

A position is on a board exactly if a cell can be read there, and this depends on the width and the
height alone. No edit changes them, so all boards of a turn have the same positions.

## Positions and places

A cell is found at a place that is computed from its position. Different positions have different
places and every place is that of a position, so boards of one shape are equal if the same can be
read everywhere (`eq_of_cell?`).
-/

namespace TilePuzzle

/-- The order in which a board is read: row by row from the top, and each row from the left. -/
def Position.Precedes (p q : Position) : Prop := p.y < q.y ∨ p.y = q.y ∧ p.x < q.x

namespace Board

variable {board : Board} {position : Position} {cell : Cell}

theorem eq_of_cells {board board' : Board} (hindex : board.index = board'.index)
    (hwidth : board.width = board'.width) (hheight : board.height = board'.height)
    (hcells : board.cells = board'.cells) : board = board' := by
  cases board; cases board'
  cases hindex; cases hwidth; cases hheight; cases hcells
  rfl

/-! ## Shapes -/

/-- Two boards of the same level and the same size. -/
structure SameShape (board board' : Board) : Prop where
  index : board'.index = board.index
  width : board'.width = board.width
  height : board'.height = board.height

namespace SameShape

theorem refl (board : Board) : SameShape board board := ⟨rfl, rfl, rfl⟩

theorem trans {a b c : Board} (hab : SameShape a b) (hbc : SameShape b c) : SameShape a c :=
  ⟨hbc.index.trans hab.index, hbc.width.trans hab.width, hbc.height.trans hab.height⟩

theorem symm {a b : Board} (h : SameShape a b) : SameShape b a :=
  ⟨h.index.symm, h.width.symm, h.height.symm⟩

theorem contains {a b : Board} (h : SameShape a b) (position : Position) :
    b.contains position = a.contains position := by
  rw [Board.contains, Board.contains, h.width, h.height]

end SameShape

theorem sameShape_setCell (board : Board) (position : Position) (cell : Cell) :
    SameShape board (board.setCell position cell) := by
  rw [setCell]
  split <;> exact ⟨rfl, rfl, rfl⟩

theorem sameShape_mapCells (f : Cell → Cell) (board : Board) :
    SameShape board (board.mapCells f) := ⟨rfl, rfl, rfl⟩

theorem sameShape_settle (board : Board) : SameShape board board.settle :=
  sameShape_mapCells ..

theorem sameShape_mark (board : Board) (set : ObjectSet) (movement : Movement) :
    SameShape board (board.mark set movement) := sameShape_mapCells ..

/-! ## Reading a cell -/

theorem contains_iff {p : Position} : board.contains p = true ↔
    0 ≤ p.x ∧ 0 ≤ p.y ∧ p.x < board.width ∧ p.y < board.height := by
  simp only [contains, Bool.and_eq_true, decide_eq_true_eq, and_assoc]

theorem place_lt_size (h : board.contains position = true) :
    board.place position < board.cells.size := by
  obtain ⟨hx, hy, hwidth, hheight⟩ := contains_iff.mp h
  rw [board.size_cells, place, Nat.mul_comm board.width]
  have hrow : position.y.toNat + 1 ≤ board.height := by omega
  have hrows := Nat.mul_le_mul_right board.width hrow
  rw [Nat.succ_mul] at hrows
  omega

/-- A position of the board is read off its place: row by row, the column is the remainder. -/
theorem place_mod_div (h : board.contains position = true) :
    ((board.place position % board.width : Nat) : Int) = position.x ∧
      ((board.place position / board.width : Nat) : Int) = position.y := by
  obtain ⟨hx, hy, hwidth, -⟩ := contains_iff.mp h
  have hlt : position.x.toNat < board.width := by omega
  have hpos : 0 < board.width := Nat.zero_lt_of_lt hlt
  rw [place, Nat.mul_comm, Nat.mul_add_mod, Nat.mod_eq_of_lt hlt, Nat.mul_add_div hpos,
    Nat.div_eq_of_lt hlt, Nat.add_zero]
  exact ⟨Int.toNat_of_nonneg hx, Int.toNat_of_nonneg hy⟩

theorem place_inj {p q : Position} (hp : board.contains p = true) (hq : board.contains q = true)
    (h : board.place p = board.place q) : p = q := by
  obtain ⟨hpx, hpy⟩ := place_mod_div hp
  obtain ⟨hqx, hqy⟩ := place_mod_div hq
  rw [h] at hpx hpy
  cases p
  cases q
  exact (Position.mk.injEq ..).mpr ⟨hpx.symm.trans hqx, hpy.symm.trans hqy⟩

@[simp] theorem mem_positions : position ∈ board.positions ↔ board.contains position = true := by
  simp only [positions, List.mem_map, List.mem_range]
  constructor
  · rintro ⟨i, hi, rfl⟩
    have hx : i % board.width < board.width :=
      Nat.mod_lt i (Nat.pos_of_mul_pos_right (Nat.zero_lt_of_lt hi))
    have hy : i / board.width < board.height := Nat.div_lt_of_lt_mul hi
    exact contains_iff.mpr ⟨Int.natCast_nonneg _, Int.natCast_nonneg _, Int.ofNat_lt.mpr hx,
      Int.ofNat_lt.mpr hy⟩
  · intro h
    obtain ⟨hx, hy⟩ := place_mod_div h
    exact ⟨board.place position, board.size_cells ▸ place_lt_size h, by rw [hx, hy]⟩

@[simp] theorem length_positions (board : Board) :
    board.positions.length = board.cells.toList.length := by
  simp [positions, board.size_cells]

theorem pairwise_positions (board : Board) : board.positions.Pairwise Position.Precedes := by
  rw [positions, List.pairwise_map]
  refine List.pairwise_lt_range.imp ?_
  intro i j hlt
  have hrows : i / board.width ≤ j / board.width := Nat.div_le_div_right (Nat.le_of_lt hlt)
  have hi := Nat.div_add_mod i board.width
  have hj := Nat.div_add_mod j board.width
  rw [Position.Precedes, Int.ofNat_lt, Int.ofNat_inj, Int.ofNat_lt]
  rcases Nat.lt_or_eq_of_le hrows with hrow | hrow
  · exact .inl hrow
  · -- in one row, the place tells the column
    rw [hrow] at hi
    exact .inr ⟨hrow, by omega⟩

/-- The positions of a board, counted through, are its rows. -/
theorem positions_eq_rows (board : Board) :
    board.positions = (List.range board.height).flatMap fun (y : Nat) ↦
      (List.range board.width).map fun (x : Nat) ↦ (⟨x, y⟩ : Position) := by
  rw [positions]
  induction board.height with
  | zero => rfl
  | succ height ih =>
    rw [Nat.mul_succ, List.range_add, List.map_append, ih, List.range_succ, List.flatMap_append,
      List.flatMap_singleton, List.map_map]
    refine congrArg (_ ++ ·) (List.map_congr_left fun x hx ↦ ?_)
    have hlt := List.mem_range.mp hx
    have hpos : 0 < board.width := Nat.zero_lt_of_lt hlt
    rw [Function.comp_apply, Nat.mul_add_mod, Nat.mod_eq_of_lt hlt, Nat.mul_add_div hpos,
      Nat.div_eq_of_lt hlt, Nat.add_zero]

theorem cell?_of_contains (h : board.contains position = true) :
    board.cell? position = board.cells[board.place position]? := by
  rw [cell?, if_pos h]

theorem contains_of_cell? (h : board.cell? position = some cell) :
    board.contains position = true := by
  by_cases hc : board.contains position = true
  · exact hc
  · rw [cell?, if_neg hc] at h
    exact absurd h (by simp)

@[simp] theorem isSome_cell? (board : Board) (position : Position) :
    (board.cell? position).isSome = board.contains position := by
  by_cases h : board.contains position = true
  · rw [cell?_of_contains h, Array.getElem?_eq_getElem (place_lt_size h), h]
    rfl
  · rw [cell?, if_neg h, eq_false_of_ne_true h]
    rfl

theorem exists_place_eq {place : Nat} (h : place < board.cells.size) :
    ∃ p, board.contains p = true ∧ board.place p = place := by
  rw [board.size_cells] at h
  refine ⟨⟨(place % board.width : Nat), (place / board.width : Nat)⟩, ?_, ?_⟩
  · exact mem_positions.mp (List.mem_map_of_mem (List.mem_range.mpr h))
  · rw [Board.place, Int.toNat_natCast, Int.toNat_natCast, Nat.mul_comm, Nat.div_add_mod]

theorem eq_of_cell? {board' : Board} (hshape : board.SameShape board')
    (h : ∀ p, board'.cell? p = board.cell? p) : board' = board := by
  refine eq_of_cells hshape.index hshape.width hshape.height (Array.ext_getElem? fun place ↦ ?_)
  have hsize : board'.cells.size = board.cells.size := by
    rw [board'.size_cells, board.size_cells, hshape.width, hshape.height]
  by_cases hplace : place < board.cells.size
  · obtain ⟨p, hp, rfl⟩ := exists_place_eq hplace
    have hcell := h p
    rw [cell?_of_contains hp, cell?_of_contains (hshape.contains p ▸ hp), Board.place,
      hshape.width] at hcell
    exact hcell
  · rw [Array.getElem?_eq_none (by omega), Array.getElem?_eq_none (by omega)]

theorem mem_cells_of_cell? (h : board.cell? position = some cell) : cell ∈ board.cells := by
  rw [cell?_of_contains (contains_of_cell? h)] at h
  exact Array.mem_of_getElem? h

@[simp] theorem cell?_mapCells (f : Cell → Cell) (board : Board) (position : Position) :
    (board.mapCells f).cell? position = (board.cell? position).map f := by
  by_cases h : board.contains position = true
  · rw [cell?_of_contains h, cell?_of_contains ((sameShape_mapCells f board).contains _ ▸ h)]
    exact Array.getElem?_map
  · rw [cell?, if_neg ((sameShape_mapCells f board).contains _ ▸ h), cell?, if_neg h]
    rfl

@[simp] theorem cell?_settle (board : Board) (position : Position) :
    board.settle.cell? position = (board.cell? position).map Cell.settle := cell?_mapCells ..

/-! ## Writing a cell -/

theorem cells_setCell (h : board.contains position = true) (cell : Cell) :
    (board.setCell position cell).cells =
      board.cells.setIfInBounds (board.place position) cell := by
  rw [setCell, if_pos h]

theorem setCell_of_not_contains (h : ¬board.contains position = true) (cell : Cell) :
    board.setCell position cell = board := by
  rw [setCell, if_neg h]

@[simp] theorem place_setCell (board : Board) (position p : Position) (cell : Cell) :
    (board.setCell position cell).place p = board.place p := by
  rw [place, place, (sameShape_setCell board position cell).width]

theorem cell?_setCell_self (h : board.contains position = true) (cell : Cell) :
    (board.setCell position cell).cell? position = some cell := by
  rw [cell?_of_contains ((sameShape_setCell board position cell).contains _ ▸ h), cells_setCell h,
    place_setCell, Array.getElem?_setIfInBounds_self_of_lt (place_lt_size h)]

theorem cell?_setCell_ne {p : Position} (h : p ≠ position) (cell : Cell) :
    (board.setCell position cell).cell? p = board.cell? p := by
  have hshape := sameShape_setCell board position cell
  by_cases hposition : board.contains position = true
  · by_cases hp : board.contains p = true
    · have hplace : board.place position ≠ board.place p := fun heq ↦
        h (place_inj hp hposition heq.symm)
      rw [cell?_of_contains hp, cell?_of_contains (hshape.contains p ▸ hp), place_setCell,
        cells_setCell hposition, Array.getElem?_setIfInBounds_ne hplace]
    · rw [cell?, if_neg (hshape.contains p ▸ hp), cell?, if_neg hp]
  · rw [setCell_of_not_contains hposition]

theorem mem_cells_setCell {c : Cell} (h : c ∈ (board.setCell position cell).cells) :
    c = cell ∨ c ∈ board.cells := by
  by_cases hc : board.contains position = true
  · rw [cells_setCell hc] at h
    rcases Array.mem_or_eq_of_mem_setIfInBounds h with hmem | heq
    · exact Or.inr hmem
    · exact Or.inl heq
  · rw [setCell_of_not_contains hc] at h
    exact Or.inr h

@[simp] theorem setCell_setCell (board : Board) (position : Position) (cell cell' : Cell) :
    (board.setCell position cell).setCell position cell' = board.setCell position cell' := by
  by_cases h : board.contains position = true
  · have hshape := sameShape_setCell board position cell
    have h' : (board.setCell position cell).contains position = true := hshape.contains _ ▸ h
    have hshape' := sameShape_setCell (board.setCell position cell) position cell'
    have hshape'' := (sameShape_setCell board position cell').symm
    refine eq_of_cells ?_ ?_ ?_ ?_
    · rw [hshape'.index, hshape.index, hshape''.index]
    · rw [hshape'.width, hshape.width, hshape''.width]
    · rw [hshape'.height, hshape.height, hshape''.height]
    · simp [cells_setCell h', cells_setCell h]
  · rw [setCell_of_not_contains h]

theorem setCell_eq_self (h : board.cell? position = some cell) :
    board.setCell position cell = board := by
  have hc := contains_of_cell? h
  rw [cell?_of_contains hc] at h
  have hshape := sameShape_setCell board position cell
  refine eq_of_cells hshape.index hshape.width hshape.height ?_
  rw [cells_setCell hc]
  obtain ⟨hlt, rfl⟩ := Array.getElem?_eq_some_iff.mp h
  rw [Array.setIfInBounds_def, dif_pos hlt, Array.set_getElem_self]

/-! ## Changing all cells -/

theorem mapCells_setCell (f : Cell → Cell) (board : Board) (position : Position) (cell : Cell) :
    (board.setCell position cell).mapCells f = (board.mapCells f).setCell position (f cell) := by
  by_cases h : board.contains position = true
  · have h' : (board.mapCells f).contains position = true :=
      (sameShape_mapCells f board).contains _ ▸ h
    have hshape := sameShape_setCell board position cell
    have hshape' := sameShape_setCell (board.mapCells f) position (f cell)
    refine eq_of_cells (hshape.index.trans hshape'.index.symm)
      (hshape.width.trans hshape'.width.symm) (hshape.height.trans hshape'.height.symm) ?_
    rw [cells_setCell h']
    change ((board.setCell position cell).cells).map f = _
    rw [cells_setCell h, Array.map_setIfInBounds]
    rfl
  · rw [setCell_of_not_contains h, setCell_of_not_contains]
    exact (sameShape_mapCells f board).contains _ ▸ h

@[simp] theorem settle_setCell (board : Board) (position : Position) (cell : Cell) :
    (board.setCell position cell).settle = board.settle.setCell position cell.settle :=
  mapCells_setCell ..

@[simp] theorem settle_settle (board : Board) : board.settle.settle = board.settle := by
  refine eq_of_cells rfl rfl rfl ?_
  change (board.cells.map Cell.settle).map Cell.settle = board.cells.map Cell.settle
  rw [Array.map_map]
  exact Array.map_congr_left fun cell _ ↦ Cell.settle_settle cell

/-- Marking gives intents only, so it cannot be seen once the board is settled. -/
@[simp] theorem settle_mark (board : Board) (set : ObjectSet) (movement : Movement) :
    (board.mark set movement).settle = board.settle := by
  refine eq_of_cells rfl rfl rfl ?_
  change (board.cells.map (Cell.mark set movement)).map Cell.settle = board.cells.map Cell.settle
  rw [Array.map_map]
  exact Array.map_congr_left fun cell _ ↦ Cell.settle_mark set movement cell

end Board

end TilePuzzle
