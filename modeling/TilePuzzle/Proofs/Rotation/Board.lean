import Mathlib.Data.List.Basic
import Mathlib.Data.Option.Basic
import TilePuzzle.Proofs.Board

/-!
# Turning boards

A board is turned by a quarter, counter-clockwise: its right side comes to the top, a board that was
wide becomes high, and an object that intended to go up intends to go to the left.

A turned board is written down row by row like any other, so where its cells come from takes some
arithmetic. It is done here once: the cell at a position comes to the turned position, and a step
becomes the turned step. What follows from turning a board is said in these terms.
-/

namespace TilePuzzle

/-! ## Directions and movements -/

@[simp] theorem Direction.turnLeft_inj {d e : Direction} : d.turnLeft = e.turnLeft ↔ d = e := by
  cases d <;> cases e <;> decide

namespace Movement

/-- The movement after a quarter turn. -/
def turned : Movement → Movement
  | toward d => toward d.turnLeft
  | action => action

theorem turned_injective : Function.Injective turned := by
  intro a b h
  cases a with
  | toward d =>
    cases b with
    | toward e => rw [Direction.turnLeft_inj.mp (toward.inj h)]
    | action => cases h
  | action =>
    cases b with
    | toward e => cases h
    | action => rfl

end Movement

/-! ## Positions -/

namespace Position

/-- Where a position comes to lie when a board of some width is turned. -/
def turned (width : Nat) (p : Position) : Position := ⟨p.y, width - 1 - p.x⟩

/-- Where a position came from when a board of some width was turned. -/
def turnedBack (width : Nat) (p : Position) : Position := ⟨width - 1 - p.y, p.x⟩

@[simp] theorem turned_turnedBack (width : Nat) (p : Position) :
    (p.turnedBack width).turned width = p := (mk.injEq ..).mpr ⟨rfl, Int.sub_sub_self ..⟩

@[simp] theorem turnedBack_turned (width : Nat) (p : Position) :
    (p.turned width).turnedBack width = p := (mk.injEq ..).mpr ⟨Int.sub_sub_self .., rfl⟩

@[simp] theorem turned_inj {width : Nat} {p q : Position} :
    p.turned width = q.turned width ↔ p = q := by
  refine ⟨fun h ↦ ?_, fun h ↦ by rw [h]⟩
  rw [← turnedBack_turned width p, h, turnedBack_turned]

/-- **A step turns into the turned step.** -/
theorem turned_step (width : Nat) (p : Position) (d : Direction) :
    (p.step d).turned width = (p.turned width).step d.turnLeft := by
  rw [turned, step, turned, step, mk.injEq]
  cases d <;> constructor <;> simp only [Direction.turnLeft, Direction.dx, Direction.dy] <;> omega

end Position

/-! ## Cells -/

/-- The occupant with its intent turned. -/
def Occupant.turned (occupant : Occupant) : Occupant :=
  { occupant with movement := occupant.movement.map Movement.turned }

theorem Occupant.turned_injective : Function.Injective turned := by
  rintro ⟨object, movement⟩ ⟨object', movement'⟩ h
  obtain ⟨hobject, hmovement⟩ := Occupant.mk.inj h
  exact (mk.injEq ..).mpr ⟨hobject, Option.map_injective Movement.turned_injective hmovement⟩

namespace Cell

/-- The cell with all intents turned. -/
def turned (cell : Cell) : Cell := cell.mapOccupants Occupant.turned

theorem turned_injective : Function.Injective turned := by
  rintro ⟨slots⟩ ⟨slots'⟩ h
  exact congrArg mk ((Option.map_injective Occupant.turned_injective).list_map (mk.inj h))

@[simp] theorem occupant?_turned (cell : Cell) (layer : LayerId) :
    cell.turned.occupant? layer = (cell.occupant? layer).map Occupant.turned :=
  occupant?_mapOccupants ..

@[simp] theorem take_turned (cell : Cell) (layer : LayerId) :
    cell.turned.take layer = (cell.take layer).turned :=
  (mapOccupants_setSlot Occupant.turned cell layer none).symm

@[simp] theorem put_turned (cell : Cell) (layer : LayerId) (occupant : Occupant) :
    cell.turned.put layer occupant.turned = (cell.put layer occupant).turned :=
  (mapOccupants_setSlot Occupant.turned cell layer (some occupant)).symm

@[simp] theorem occupants_turned (cell : Cell) :
    cell.turned.occupants = cell.occupants.map fun x ↦ (x.1, x.2.turned) := by
  rw [occupants, occupants, turned, mapOccupants, List.zipIdx_map, List.filterMap_map,
    List.map_filterMap]
  refine List.filterMap_congr ?_
  rintro ⟨slot, i⟩ -
  cases slot with
  | none => rfl
  | some occupant => rfl

end Cell

/-! ## Boards -/

namespace Board

variable {board board' : Board}

/-- The board after a quarter turn: the cell at `(x, y)` comes to `(y, width - 1 - x)`. -/
def turned (board : Board) : Board where
  index := board.index
  width := board.height
  height := board.width
  cells := .ofFn fun (i : Fin (board.height * board.width)) ↦
    ((board.cell? (Position.turnedBack board.width
      ⟨(i % board.height : Nat), (i / board.height : Nat)⟩)).map Cell.turned).getD default
  size_cells := Array.size_ofFn

@[simp] theorem contains_turned (board : Board) (p : Position) :
    board.turned.contains (p.turned board.width) = board.contains p := by
  rw [Bool.eq_iff_iff, contains_iff, contains_iff]
  simp only [turned, Position.turned]
  omega

theorem getElem?_cells_turned {place : Nat} (h : place < board.height * board.width) :
    board.turned.cells[place]? = some (((board.cell? (Position.turnedBack board.width
      ⟨(place % board.height : Nat), (place / board.height : Nat)⟩)).map Cell.turned).getD
        default) := by
  rw [turned, Array.getElem?_ofFn, dif_pos h]

/-- **The cell at a position comes to the turned position.** -/
@[simp] theorem cell?_turned (board : Board) (p : Position) :
    board.turned.cell? (p.turned board.width) = (board.cell? p).map Cell.turned := by
  by_cases h : board.contains p = true
  · have h' : board.turned.contains (p.turned board.width) = true :=
      (contains_turned board p).trans h
    have hplace : board.turned.place (p.turned board.width) < board.height * board.width :=
      board.turned.size_cells ▸ place_lt_size h'
    -- the turned position is read off its place, and then it is turned back
    obtain ⟨hx, hy⟩ := place_mod_div h'
    have hback : Position.turnedBack board.width
        ⟨(board.turned.place (p.turned board.width) % board.height : Nat),
          (board.turned.place (p.turned board.width) / board.height : Nat)⟩ = p := by
      rw [show board.height = board.turned.width from rfl, hx, hy]
      exact Position.turnedBack_turned board.width p
    obtain ⟨cell, hcell⟩ := Option.isSome_iff_exists.mp ((isSome_cell? board p).trans h)
    rw [cell?_of_contains h', getElem?_cells_turned hplace, hback, hcell]
    rfl
  · simp [cell?, h]

theorem sameShape_turned (h : board.SameShape board') : board.turned.SameShape board'.turned :=
  ⟨h.index, h.height, h.width⟩

/-- A cell may be replaced before the board is turned. -/
@[simp] theorem setCell_turned (board : Board) (p : Position) (cell : Cell) :
    board.turned.setCell (p.turned board.width) cell.turned = (board.setCell p cell).turned := by
  have hshape := sameShape_setCell board p cell
  refine eq_of_cell? ((sameShape_turned hshape).symm.trans (sameShape_setCell ..)) fun q ↦ ?_
  -- every position is a turned one
  obtain ⟨q, rfl⟩ : ∃ r : Position, r.turned board.width = q :=
    ⟨_, Position.turned_turnedBack board.width q⟩
  have hright := cell?_turned (board.setCell p cell) q
  rw [hshape.width] at hright
  rw [hright]
  by_cases hq : q = p
  · subst hq
    by_cases h : board.contains q = true
    · rw [cell?_setCell_self h, cell?_setCell_self ((contains_turned board q).trans h)]
      rfl
    · rw [setCell_of_not_contains h, setCell_of_not_contains (contains_turned board q ▸ h),
        cell?_turned]
  · rw [cell?_setCell_ne hq, cell?_setCell_ne (mt Position.turned_inj.mp hq), cell?_turned]

end Board

end TilePuzzle
