import Mathlib.Data.Set.Function
import TilePuzzle.Proofs.Board

/-!
# Positions address the cells of a board

A board keeps its cells in one array, and a slot of a cell is found by a position and a number. Here
it is shown that such addresses do not interfere: a write has effect on the slot that it addresses
and on no other one.

## Positions and places

The positions of a board are listed row by row, its cells in one array, and the two are brought
together in two ways: a cell is looked up at the place computed from its position, and cells are
listed by pairing the two sequences in step. Both agree on every board (`IsAddressed`), for the
places of the positions, in their order, are the numbers from zero on.

## Many writes

One write is the step (`slotAt?_write`): it decides the slot that it addresses and leaves all others
alone. After many writes a slot is decided by those among them that address it (`slotAt?_after`). A
write to a position off the board, or to a layer above the number of slots, addresses no slot and
changes nothing.
-/

namespace TilePuzzle

namespace Board

variable {board : Board}

/-! ## Positions and places -/

theorem map_place_positions (board : Board) :
    board.positions.map board.place = List.range board.cells.size := by
  rw [positions, List.map_map, board.size_cells]
  refine (List.map_congr_left fun i _ ↦ ?_).trans (List.map_id _)
  rw [Function.comp_apply, place, Int.toNat_natCast, Int.toNat_natCast, Nat.div_add_mod']
  rfl

theorem nodup_positions (board : Board) : board.positions.Nodup := by
  refine (pairwise_positions board).imp ?_
  rintro p _ h rfl
  rcases h with h | ⟨-, h⟩ <;> exact Int.lt_irrefl _ h

theorem map_cell?_positions (board : Board) :
    board.positions.map board.cell? = board.cells.toList.map some := by
  calc board.positions.map board.cell?
      = board.positions.map fun p ↦ board.cells[board.place p]? := by
        apply List.map_congr_left
        intro p hp
        exact cell?_of_contains (mem_positions.mp hp)
    _ = (List.range board.cells.size).map fun i ↦ board.cells[i]? := by
        rw [← map_place_positions, List.map_map]
        rfl
    _ = board.cells.toList.map some := by
        apply List.ext_getElem
        · simp
        · intro i hi hi'
          simp

/-- Positions and cells of a board of a given size belong together. -/
structure IsAddressed (board : Board) (width height : Nat) : Prop where
  /-- The positions are listed row by row. -/
  positions_eq : board.positions = (List.range height).flatMap fun y : Nat ↦
    (List.range width).map fun x : Nat ↦ ⟨x, y⟩
  nodup_positions : board.positions.Nodup
  mem_positions_iff : ∀ p,
    p ∈ board.positions ↔ (0 ≤ p.x ∧ p.x < width) ∧ 0 ≤ p.y ∧ p.y < height
  /-- Each place in the array of cells is that of one position. -/
  bijOn_place : Set.BijOn board.place {p | p ∈ board.positions} {i | i < board.cells.size}
  /-- A cell is found at the positions, and there the access is in range. -/
  isSome_cell?_iff : ∀ p, (board.cell? p).isSome = true ↔ p ∈ board.positions
  cell?_eq : ∀ p ∈ board.positions, ∃ h : board.place p < board.cells.size,
    board.cell? p = some board.cells[board.place p]
  /-- Each position is listed with the cell that is found there. -/
  placedCells_eq : board.placedCells.map (fun (p, cell) ↦ (p, some cell)) =
    board.positions.map fun p ↦ (p, board.cell? p)
  count_eq : ∀ object, board.count object =
    board.positions.countP fun p ↦ (board.cell? p).any (Cell.holds · object)

/-- **Every board is addressed by its positions.** -/
theorem isAddressed (board : Board) : board.IsAddressed board.width board.height where
  positions_eq := positions_eq_rows board
  nodup_positions := nodup_positions board
  mem_positions_iff p := by
    rw [mem_positions, contains_iff]
    constructor
    · rintro ⟨hx, hy, hx', hy'⟩
      exact ⟨⟨hx, hx'⟩, hy, hy'⟩
    · rintro ⟨⟨hx, hx'⟩, hy, hy'⟩
      exact ⟨hx, hy, hx', hy'⟩
  bijOn_place := by
    refine ⟨fun p hp ↦ ?_, fun p hp q hq h ↦ ?_, fun i hi ↦ ?_⟩
    · exact place_lt_size (mem_positions.mp hp)
    · exact place_inj (mem_positions.mp hp) (mem_positions.mp hq) h
    · obtain ⟨p, hp, rfl⟩ := exists_place_eq hi
      exact ⟨p, mem_positions.mpr hp, rfl⟩
  isSome_cell?_iff p := by rw [isSome_cell?, mem_positions]
  cell?_eq p hp := by
    rw [mem_positions] at hp
    have hplace := place_lt_size hp
    refine ⟨hplace, ?_⟩
    rw [cell?_of_contains hp, Array.getElem?_eq_getElem hplace]
  placedCells_eq := by
    calc board.placedCells.map (fun (p, cell) ↦ (p, some cell))
        = board.positions.zip (board.cells.toList.map some) := by
          rw [placedCells, List.zip_map_right]
          rfl
      _ = board.positions.map fun p ↦ (p, board.cell? p) := by
          rw [← map_cell?_positions]
          simpa using List.zip_map' (f := id) (g := board.cell?) (l := board.positions)
  count_eq object := by
    calc board.count object
        = (board.cells.toList.map some).countP fun cell ↦ cell.any (Cell.holds · object) := by
          rw [count, ← Array.countP_toList, List.countP_map]
          rfl
      _ = board.positions.countP fun p ↦ (board.cell? p).any (Cell.holds · object) := by
          rw [← map_cell?_positions, List.countP_map]
          rfl

/-- A board of two rows and two columns. -/
example : (blank 0 2 2 1).positions = [⟨0, 0⟩, ⟨1, 0⟩, ⟨0, 1⟩, ⟨1, 1⟩] := by
  decide

end Board

/-! ## Writes to a cell -/

/-- What is written into a slot. -/
inductive SlotWrite
  /-- An occupant is put there, in place of any other one. -/
  | put (occupant : Occupant)
  /-- The slot is emptied. -/
  | take
  /-- The intent of the occupant is written, if there is one. -/
  | setMovement (movement : Option Movement)
  /-- The occupant is overwritten by another one, if there is one. -/
  | exchange (occupant : Occupant)

/-- What a slot holds after a write. -/
def SlotWrite.result : SlotWrite → Option Occupant → Option Occupant
  | put occupant, _ => some occupant
  | take, _ => none
  | setMovement movement, slot => slot.map fun occupant ↦ { occupant with movement }
  | exchange occupant, slot => slot.map fun _ ↦ occupant

namespace Cell

/-- Writes to the slot of a layer. -/
def write (cell : Cell) (layer : LayerId) : SlotWrite → Cell
  | .put occupant => cell.put layer occupant
  | .take => cell.take layer
  | .setMovement movement => cell.setMovement layer movement
  | .exchange occupant =>
    match cell.occupant? layer with
    | none => cell
    | some _ => cell.put layer occupant

/-- Every write comes down to writing the slot. -/
theorem write_eq (cell : Cell) (layer : LayerId) (content : SlotWrite) :
    cell.write layer content = cell.setSlot layer (content.result (cell.occupant? layer)) := by
  cases content with
  | put occupant => rfl
  | take => rfl
  | setMovement movement =>
    rw [write, setMovement]
    cases hslot : cell.occupant? layer with
    | none => exact (take_eq_self hslot).symm
    | some occupant => rfl
  | exchange occupant =>
    rw [write]
    cases hslot : cell.occupant? layer with
    | none => exact (take_eq_self hslot).symm
    | some before => rfl

theorem getElem?_slots_write (cell : Cell) (layer : LayerId) (content : SlotWrite) (k : Nat) :
    (cell.write layer content).slots[k]? =
      if layer.index = k then cell.slots[k]?.map content.result else cell.slots[k]? := by
  rw [write_eq, setSlot, List.getElem?_set]
  by_cases hk : layer.index = k
  · subst hk
    rw [if_pos rfl, if_pos rfl, occupant?]
    by_cases hlt : layer.index < cell.slots.length
    · rw [if_pos hlt, List.getElem?_eq_getElem hlt]
      rfl
    · rw [if_neg hlt, List.getElem?_eq_none (Nat.not_lt.mp hlt)]
      rfl
  · rw [if_neg hk, if_neg hk]

theorem write_eq_self {cell : Cell} {layer : LayerId} (h : cell.slots.length ≤ layer.index)
    (content : SlotWrite) : cell.write layer content = cell := by
  rw [write_eq, setSlot, List.set_eq_of_length_le h]

end Cell

/-! ## Writes to a board -/

/-- A write to the slot of a layer in the cell at a position. -/
structure Write where
  position : Position
  layer : LayerId
  content : SlotWrite

namespace Write

/-- The write addresses a slot: the one with a given number in the cell at a position. -/
def Hits (write : Write) (p : Position) (k : Nat) : Prop :=
  write.position = p ∧ write.layer.index = k

instance (write : Write) (p : Position) (k : Nat) : Decidable (write.Hits p k) :=
  inferInstanceAs (Decidable (_ ∧ _))

/-- What a slot holds after all of some writes to it. -/
def run (writes : List Write) (slot : Option Occupant) : Option Occupant :=
  writes.foldl (fun slot write ↦ write.content.result slot) slot

end Write

namespace Board

variable {board : Board}

/-- Writes to a slot of the board, if there is a cell at the position. -/
def write (board : Board) (write : Write) : Board :=
  match board.cell? write.position with
  | none => board
  | some cell => board.setCell write.position (cell.write write.layer write.content)

/-- The board after writes. -/
def after (board : Board) (writes : List Write) : Board := writes.foldl write board

/-- The slot with a given number in the cell at a position. -/
def slotAt? (board : Board) (p : Position) (k : Nat) : Option (Option Occupant) :=
  (board.cell? p).bind fun cell ↦ cell.slots[k]?

theorem sameShape_write (board : Board) (w : Write) : SameShape board (board.write w) := by
  rw [write]
  split
  · exact SameShape.refl board
  · exact sameShape_setCell ..

theorem sameShape_after (board : Board) (writes : List Write) :
    SameShape board (board.after writes) := by
  induction writes generalizing board with
  | nil => exact SameShape.refl board
  | cons w writes ih => exact (sameShape_write board w).trans (ih (board.write w))

/-- **One write** changes the slot that it addresses, and no other one. -/
theorem slotAt?_write (board : Board) (w : Write) (p : Position) (k : Nat) :
    (board.write w).slotAt? p k =
      if w.Hits p k then (board.slotAt? p k).map w.content.result else board.slotAt? p k := by
  rw [write, slotAt?, slotAt?]
  cases hcell : board.cell? w.position with
  | none =>
    by_cases hp : w.position = p
    · subst hp
      simp [hcell]
    · rw [if_neg (fun h ↦ hp h.1)]
  | some cell =>
    by_cases hp : w.position = p
    · subst hp
      rw [cell?_setCell_self (contains_of_cell? hcell), hcell, Option.bind_some, Option.bind_some,
        Cell.getElem?_slots_write]
      by_cases hk : w.layer.index = k
      · rw [if_pos hk, if_pos ⟨rfl, hk⟩]
      · rw [if_neg hk, if_neg (fun h ↦ hk h.2)]
    · rw [if_neg (fun h ↦ hp h.1), cell?_setCell_ne (Ne.symm hp)]

/-- **Many writes**: a slot is decided by those that address it. -/
theorem slotAt?_after (board : Board) (writes : List Write) (p : Position) (k : Nat) :
    (board.after writes).slotAt? p k =
      (board.slotAt? p k).map (Write.run (writes.filter fun w ↦ w.Hits p k)) := by
  induction writes generalizing board with
  | nil => exact Option.map_id'.symm
  | cons w writes ih =>
    rw [after, List.foldl_cons, ← after, ih, slotAt?_write]
    by_cases hw : w.Hits p k
    · rw [if_pos hw, List.filter_cons_of_pos (by simpa using hw), Option.map_map]
      rfl
    · rw [if_neg hw, List.filter_cons_of_neg (by simpa using hw)]

theorem slotAt?_blank (index width height layerCount : Nat) (p : Position) (k : Nat) :
    (blank index width height layerCount).slotAt? p k =
      if (blank index width height layerCount).contains p = true ∧ k < layerCount then some none
      else none := by
  rw [slotAt?]
  by_cases hp : (blank index width height layerCount).contains p = true
  · have hplace := place_lt_size hp
    have hcell : (blank index width height layerCount).cell? p = some (.blank layerCount) := by
      rw [cell?_of_contains hp, Array.getElem?_eq_getElem hplace]
      exact congrArg some (Array.getElem_replicate _)
    rw [hcell, Option.bind_some, Cell.blank, List.getElem?_replicate]
    simp [hp]
  · simp [cell?, hp]

theorem write_eq_self {w : Write} (h : board.slotAt? w.position w.layer.index = none) :
    board.write w = board := by
  rw [slotAt?] at h
  rw [write]
  cases hcell : board.cell? w.position with
  | none => rfl
  | some cell =>
    rw [hcell, Option.bind_some, List.getElem?_eq_none_iff] at h
    change board.setCell w.position (cell.write w.layer w.content) = board
    rw [Cell.write_eq_self h, setCell_eq_self hcell]

/-- **Addresses do not interfere.** On a board of any size that was written to in any way, positions
and cells belong together. Every slot of a cell of the board holds what the writes that address it
make of an empty slot, and there are no other slots, so a layer above their number holds nothing.
One more write changes the slot that it addresses and no other one, and a write to a position off
the board or to a layer above the number of slots changes nothing. -/
theorem addresses_apart (index width height layerCount : Nat) (writes : List Write) :
    let board := (blank index width height layerCount).after writes
    board.IsAddressed width height ∧
    (∀ p k, board.slotAt? p k =
      if board.contains p = true ∧ k < layerCount then
        some (Write.run (writes.filter fun w ↦ w.Hits p k) none)
      else none) ∧
    (∀ p cell, board.cell? p = some cell →
      ∀ layer, layerCount ≤ layer.index → cell.occupant? layer = none) ∧
    (∀ w p k, (board.write w).slotAt? p k =
      if w.Hits p k then (board.slotAt? p k).map w.content.result else board.slotAt? p k) ∧
    ∀ w : Write, ¬board.contains w.position = true ∨ layerCount ≤ w.layer.index →
      board.write w = board := by
  intro board
  have hshape : SameShape (blank index width height layerCount) board := sameShape_after ..
  have haddressed : board.IsAddressed width height := by
    have h := board.isAddressed
    rwa [hshape.width, hshape.height] at h
  have hslot : ∀ p k, board.slotAt? p k =
      if board.contains p = true ∧ k < layerCount then
        some (Write.run (writes.filter fun w ↦ w.Hits p k) none)
      else none := by
    intro p k
    rw [slotAt?_after, slotAt?_blank, hshape.contains p]
    split <;> rfl
  refine ⟨haddressed, hslot, ?_, slotAt?_write board, ?_⟩
  · intro p cell hcell layer hlayer
    have h := hslot p layer.index
    rw [if_neg (fun h ↦ Nat.not_lt.mpr hlayer h.2), slotAt?, hcell, Option.bind_some] at h
    rw [Cell.occupant?, h]
    rfl
  · intro w hw
    apply write_eq_self
    rw [hslot, if_neg]
    rintro ⟨hp, hk⟩
    exact hw.elim (fun h ↦ h hp) (fun h ↦ Nat.not_lt.mpr h hk)

end Board

end TilePuzzle
