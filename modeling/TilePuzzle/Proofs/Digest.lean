import Mathlib.Algebra.Group.Nat.Defs
import TilePuzzle.Board.Digest
import TilePuzzle.Proofs.Board
import TilePuzzle.Proofs.Definition.Namespace

/-!
# What the bytes of a board tell

The bytes of a board are numbers of fixed widths written one after the other, so on boards with a
common number of layers they can be taken apart again: first the sizes, then a two-byte number for
every slot of every cell. Intents and the number of the level are not among them.

## What is confused

Such a number is that of an object or stands for an empty slot, and the number that stands for an
empty slot is also that of the last object there can be. A document may declare so many objects, and
then a slot that holds the last one looks like an empty slot; nothing else is ever confused
(`LooksLike`).
-/

namespace TilePuzzle

/-! ## Numbers of fixed width -/

theorem littleEndian_succ (count n : Nat) :
    littleEndian (count + 1) n = .ofNat n :: littleEndian count (n / 256) := by
  rw [littleEndian, List.range_succ_eq_map, List.map_cons, List.map_map, Nat.mul_zero,
    Nat.shiftRight_zero, littleEndian]
  congr 1
  refine List.map_congr_left fun i _ ↦ congrArg UInt8.ofNat ?_
  have hshift : 8 * i.succ = 8 + 8 * i := by omega
  rw [hshift, Nat.shiftRight_add, Nat.shiftRight_eq_div_pow n 8]

@[simp] theorem length_littleEndian (count n : Nat) : (littleEndian count n).length = count := by
  simp [littleEndian]

theorem littleEndian_inj {count n m : Nat} (hn : n < 256 ^ count) (hm : m < 256 ^ count) :
    littleEndian count n = littleEndian count m ↔ n = m := by
  induction count generalizing n m with
  | zero =>
    rw [Nat.pow_zero, Nat.lt_one_iff] at hn hm
    simp [hn, hm]
  | succ count ih =>
    have hbyte : UInt8.ofNat n = UInt8.ofNat m ↔ n % 256 = m % 256 := by
      rw [← UInt8.toNat_inj]
      rfl
    rw [Nat.pow_succ] at hn hm
    have hrest := ih (Nat.div_lt_of_lt_mul (by omega : n < 256 * 256 ^ count))
      (Nat.div_lt_of_lt_mul (by omega : m < 256 * 256 ^ count))
    rw [littleEndian_succ, littleEndian_succ, List.cons.injEq, hbyte, hrest]
    omega

/-- A number that fits its bytes can be read off what it stands in front of. -/
theorem littleEndian_append_inj {count n m : Nat} {rest rest' : List UInt8} (hn : n < 256 ^ count)
    (hm : m < 256 ^ count) :
    littleEndian count n ++ rest = littleEndian count m ++ rest' ↔ n = m ∧ rest = rest' := by
  constructor
  · intro h
    obtain ⟨hnumber, hrest⟩ := List.append_inj h (by rw [length_littleEndian, length_littleEndian])
    exact ⟨(littleEndian_inj hn hm).mp hnumber, hrest⟩
  · rintro ⟨rfl, rfl⟩
    rfl

/-- Parts of known lengths, written one after the other, can be taken apart again. -/
theorem flatMap_eq_flatMap_iff {α β : Type} {f : α → List β} {xs ys : List α}
    (h : (xs.map f).map List.length = (ys.map f).map List.length) :
    xs.flatMap f = ys.flatMap f ↔ xs.map f = ys.map f := by
  rw [List.flatMap_def, List.flatMap_def, List.eq_iff_flatten_eq (L := xs.map f)]
  exact (and_iff_left h).symm

/-! ## Slots -/

/-- The last object that there can be. -/
def ObjectId.last : ObjectId := ⟨65535⟩

/-- What two slots hold looks the same in the bytes of a board: it is the same, or one slot is empty
and the other holds the last object. -/
def LooksLike (found other : Option ObjectId) : Prop :=
  found = other ∨ found = none ∧ other = some .last ∨ found = some .last ∧ other = none

theorem looksLike_iff_eq {found other : Option ObjectId} (hfound : found ≠ some .last)
    (hother : other ≠ some .last) : LooksLike found other ↔ found = other := by
  rw [LooksLike, or_iff_left]
  rintro (⟨-, hlast⟩ | ⟨hlast, -⟩)
  · exact hother hlast
  · exact hfound hlast

namespace Cell

theorem slotCode_lt (slot : Option Occupant) : slotCode slot < 256 ^ 2 := by
  cases slot with
  | none => decide
  | some occupant => exact occupant.object.code.toNat_lt

theorem slotCode_eq_iff (slot other : Option Occupant) :
    slotCode slot = slotCode other ↔
      LooksLike (slot.map Occupant.object) (other.map Occupant.object) := by
  have hlast : ∀ id : ObjectId, id.index = 65535 ↔ id = .last :=
    fun id ↦ ObjectId.index_inj (b := .last)
  cases slot with
  | none =>
    cases other with
    | none => simp [LooksLike]
    | some occupant =>
      rw [eq_comm]
      simp [LooksLike, slotCode, hlast]
  | some occupant =>
    cases other with
    | none => simp [LooksLike, slotCode, hlast]
    | some occupant' => simp [LooksLike, slotCode, ObjectId.index_inj]

/-- The object in a slot, if the cell has that slot and it is not empty. -/
def objectIn? (cell : Cell) (slot : Nat) : Option ObjectId :=
  cell.slots[slot]?.join.map Occupant.object

/-- The bytes of a cell. -/
def bytes (cell : Cell) : List UInt8 :=
  cell.slots.flatMap fun slot ↦ littleEndian 2 (slotCode slot)

@[simp] theorem length_bytes (cell : Cell) : cell.bytes.length = cell.slots.length * 2 := by
  rw [bytes, List.length_flatMap]
  simp only [length_littleEndian, List.map_const', List.sum_replicate_nat]

/-- The bytes of cells with as many slots tell what is in the slots, up to what looks the same. -/
theorem bytes_eq_iff {cell other : Cell} (h : cell.slots.length = other.slots.length) :
    cell.bytes = other.bytes ↔
      ∀ slot, LooksLike (cell.objectIn? slot) (other.objectIn? slot) := by
  rw [bytes, bytes, flatMap_eq_flatMap_iff, List.ext_getElem?_iff]
  · refine forall_congr' fun slot ↦ ?_
    rw [List.getElem?_map, List.getElem?_map, objectIn?, objectIn?]
    by_cases hslot : slot < cell.slots.length
    · rw [List.getElem?_eq_getElem hslot, List.getElem?_eq_getElem (h ▸ hslot)]
      simp only [Option.map_some, Option.some.injEq, Option.join_some]
      rw [littleEndian_inj (slotCode_lt _) (slotCode_lt _), slotCode_eq_iff]
    · rw [List.getElem?_eq_none (by omega), List.getElem?_eq_none (by omega)]
      simp [LooksLike]
  · simp only [List.map_map, Function.comp_def, length_littleEndian, List.map_const', h]

end Cell

/-! ## Boards -/

namespace Board

/-- The object in a slot of the cell at a position, if there is such a slot and it is not empty. -/
def objectIn? (board : Board) (position : Position) (slot : Nat) : Option ObjectId :=
  (board.cell? position).bind fun cell ↦ cell.objectIn? slot

/-- Every cell has a given number of slots. -/
def HasLayers (board : Board) (layerCount : Nat) : Prop :=
  ∀ cell ∈ board.cells, cell.slots.length = layerCount

instance (board : Board) (layerCount : Nat) : Decidable (board.HasLayers layerCount) :=
  inferInstanceAs (Decidable (∀ cell ∈ board.cells, cell.slots.length = layerCount))

/-- The sizes of a board are machine words of eight bytes, as they are wherever a board can be
stored. -/
def IsAddressable (board : Board) : Prop := board.width < 256 ^ 8 ∧ board.height < 256 ^ 8

instance (board : Board) : Decidable board.IsAddressable :=
  inferInstanceAs (Decidable (board.width < 256 ^ 8 ∧ board.height < 256 ^ 8))

theorem bytes_eq (board : Board) : board.bytes =
    littleEndian 8 board.width ++ littleEndian 8 board.height ++
      board.cells.toList.flatMap Cell.bytes := rfl

variable {board other : Board} {layerCount : Nat}

theorem map_cells_eq_iff {α : Type} (f : Cell → α) (hwidth : board.width = other.width)
    (hheight : board.height = other.height) :
    board.cells.toList.map f = other.cells.toList.map f ↔
      ∀ position, (board.cell? position).map f = (other.cell? position).map f := by
  have hcontains : ∀ position, other.contains position = board.contains position := by
    intro position
    rw [contains, contains, hwidth, hheight]
  have hsize : other.cells.size = board.cells.size := by
    rw [other.size_cells, board.size_cells, hwidth, hheight]
  rw [List.ext_getElem?_iff]
  simp only [List.getElem?_map, Array.getElem?_toList]
  constructor
  · intro h position
    by_cases hposition : board.contains position = true
    · have hplace := h (board.place position)
      rw [cell?_of_contains hposition, cell?_of_contains ((hcontains position).trans hposition),
        hplace, place, place, hwidth]
    · rw [cell?, if_neg hposition, cell?, if_neg (hcontains position ▸ hposition)]
  · intro h place
    by_cases hplace : place < board.cells.size
    · obtain ⟨position, hposition, rfl⟩ := exists_place_eq hplace
      have hcell := h position
      rw [cell?_of_contains hposition,
        cell?_of_contains ((hcontains position).trans hposition)] at hcell
      rw [hcell, Board.place, Board.place, hwidth]
    · rw [Array.getElem?_eq_none (by omega), Array.getElem?_eq_none (by omega)]

theorem flatMap_bytes_eq_iff (hboard : board.HasLayers layerCount)
    (hother : other.HasLayers layerCount) (hwidth : board.width = other.width)
    (hheight : board.height = other.height) :
    board.cells.toList.flatMap Cell.bytes = other.cells.toList.flatMap Cell.bytes ↔
      ∀ position slot,
        LooksLike (board.objectIn? position slot) (other.objectIn? position slot) := by
  have hlength : ∀ {board : Board}, board.HasLayers layerCount →
      (board.cells.toList.map Cell.bytes).map List.length =
        List.replicate (board.width * board.height) (layerCount * 2) := by
    intro board hboard
    rw [← board.size_cells, ← Array.length_toList, ← List.map_const', List.map_map]
    refine List.map_congr_left fun cell hcell ↦ ?_
    simp [hboard cell (Array.mem_toList_iff.mp hcell)]
  rw [flatMap_eq_flatMap_iff (by rw [hlength hboard, hlength hother, hwidth, hheight]),
    map_cells_eq_iff Cell.bytes hwidth hheight]
  refine forall_congr' fun position ↦ ?_
  have hsome : (board.cell? position).isSome = (other.cell? position).isSome := by
    simp [contains, hwidth, hheight]
  unfold objectIn?
  cases hcell : board.cell? position with
  | none =>
    rw [hcell] at hsome
    rw [Option.isNone_iff_eq_none.mp (Option.isSome_eq_false_iff.mp hsome.symm)]
    simp [LooksLike]
  | some cell =>
    rw [hcell] at hsome
    obtain ⟨cell', hcell'⟩ := Option.isSome_iff_exists.mp hsome.symm
    rw [hcell', Option.map_some, Option.map_some, Option.some.injEq]
    refine Cell.bytes_eq_iff ?_
    rw [hboard cell (mem_cells_of_cell? hcell), hother cell' (mem_cells_of_cell? hcell')]

/-- The bytes of a board tell its sizes and what is in its slots, up to what looks the same. -/
theorem bytes_eq_iff (hboard : board.IsAddressable) (hother : other.IsAddressable)
    (hlayers : board.HasLayers layerCount) (hlayers' : other.HasLayers layerCount) :
    board.bytes = other.bytes ↔
      board.width = other.width ∧ board.height = other.height ∧
        ∀ position slot,
          LooksLike (board.objectIn? position slot) (other.objectIn? position slot) := by
  rw [bytes_eq, bytes_eq, List.append_assoc, List.append_assoc,
    littleEndian_append_inj hboard.1 hother.1, littleEndian_append_inj hboard.2 hother.2]
  refine and_congr_right fun hwidth ↦ and_congr_right fun hheight ↦ ?_
  exact flatMap_bytes_eq_iff hlayers hlayers' hwidth hheight

@[simp] theorem bytes_settle (board : Board) : board.settle.bytes = board.bytes := by
  have hslot : ∀ slot : Option Occupant,
      Cell.slotCode (slot.map fun occupant ↦ .still occupant.object) = Cell.slotCode slot := by
    intro slot
    cases slot with
    | none => rfl
    | some occupant => rfl
  have hcell : ∀ cell : Cell, cell.settle.bytes = cell.bytes := by
    intro cell
    rw [Cell.bytes, Cell.bytes, Cell.settle, Cell.mapOccupants, List.flatMap_map]
    simp only [hslot]
  rw [bytes_eq, bytes_eq, settle, mapCells, Array.toList_map, List.flatMap_map]
  simp only [hcell]

/-- **What the bytes of a board tell**: its sizes, and what is in every slot of every cell, except
that they do not tell the last object from an empty slot. Where neither board has that object, the
bytes are the same just if the sizes and the objects are. The number of the level and the intents
are not told. -/
theorem bytes_tell (hboard : board.IsAddressable) (hother : other.IsAddressable)
    (hlayers : board.HasLayers layerCount) (hlayers' : other.HasLayers layerCount) :
    (board.bytes = other.bytes ↔
      board.width = other.width ∧ board.height = other.height ∧
        ∀ position slot,
          LooksLike (board.objectIn? position slot) (other.objectIn? position slot)) ∧
    ((∀ position slot, board.objectIn? position slot ≠ some .last ∧
        other.objectIn? position slot ≠ some .last) →
      (board.bytes = other.bytes ↔
        board.width = other.width ∧ board.height = other.height ∧
          ∀ position slot, board.objectIn? position slot = other.objectIn? position slot)) ∧
    (∀ index, { board with index }.bytes = board.bytes) ∧ board.settle.bytes = board.bytes := by
  have hbytes := bytes_eq_iff hboard hother hlayers hlayers'
  refine ⟨hbytes, fun hlast ↦ ?_, fun _ ↦ rfl, bytes_settle board⟩
  have hsame : ∀ position slot,
      LooksLike (board.objectIn? position slot) (other.objectIn? position slot) ↔
        board.objectIn? position slot = other.objectIn? position slot := by
    intro position slot
    exact looksLike_iff_eq (hlast position slot).1 (hlast position slot).2
  rw [hbytes]
  simp only [hsame]

end Board

/-! ## The last object -/

/-- When a table has as many objects as the message about too many objects allows, one more object
with new names is accepted, and it is the last one that there can be. -/
theorem SymbolTable.nameObject_last {table : SymbolTable} {declaration : ObjectDeclaration}
    (hsize : table.objects.size = maxObjects)
    (hnew : table.legend.IsNew declaration.filedNames) :
    ∃ legend, table.nameObject declaration = .ok legend ∧
      legend.lookup? declaration.name = some (.object .last) := by
  rcases table.nameObject_cases declaration with ⟨legend, hlegend, -⟩ | ⟨error, -, hrefused⟩
  · obtain ⟨-, -, hget⟩ := nameObject_eq_ok hlegend
    have hname : Text.fold declaration.name ∈ declaration.filedNames := List.mem_cons_self
    refine ⟨legend, hlegend, ?_⟩
    rw [Legend.lookup?, hget, if_pos hname, hsize]
    rfl
  · exact absurd ⟨Nat.le_of_eq hsize, hnew⟩ hrefused

namespace Board

/-- A board of one cell that holds nothing but the last object. -/
def lonely : Board := (blank 0 1 1 1).setCell ⟨0, 0⟩ ⟨[some (.still .last)]⟩

/-- A full table names one more object, the last one, and the bytes do not tell that object in its
only cell from an empty cell. -/
theorem bytes_tell_lonely :
    (∃ (table : SymbolTable) (legend : Legend), table.objects.size = SymbolTable.maxObjects ∧
      table.nameObject ⟨1, "Lamp", [], [], []⟩ = .ok legend ∧
        legend.lookup? "Lamp" = some (.object .last)) ∧
      lonely.objectIn? ⟨0, 0⟩ 0 = some .last ∧ (blank 0 1 1 1).objectIn? ⟨0, 0⟩ 0 = none ∧
      lonely.bytes = (blank 0 1 1 1).bytes ∧
      ∀ position slot,
        LooksLike (lonely.objectIn? position slot) ((blank 0 1 1 1).objectIn? position slot) := by
  let table : SymbolTable := ⟨.replicate SymbolTable.maxObjects default, ∅⟩
  have hsize : table.objects.size = SymbolTable.maxObjects := Array.size_replicate
  have hnew : table.legend.IsNew (ObjectDeclaration.filedNames ⟨1, "Lamp", [], [], []⟩) :=
    (Legend.isNew_empty _).mpr (List.nodup_singleton _)
  obtain ⟨legend, hlegend, hlamp⟩ := SymbolTable.nameObject_last hsize hnew
  have hbytes : lonely.bytes = (blank 0 1 1 1).bytes := by decide
  have htell := @bytes_tell lonely (blank 0 1 1 1) 1 (by decide) (by decide) (by decide)
    (by decide)
  exact ⟨⟨table, legend, hsize, hlegend, hlamp⟩, by decide, by decide, hbytes,
    (htell.1.mp hbytes).2.2⟩

/-- It is not so that boards with the same bytes have the same objects: the last object is written
like an empty slot. -/
theorem not_forall_bytes_tell : ¬∀ (board other : Board) (layerCount : Nat),
    board.IsAddressable → other.IsAddressable → board.HasLayers layerCount →
      other.HasLayers layerCount →
        (board.bytes = other.bytes ↔
          board.width = other.width ∧ board.height = other.height ∧
            ∀ position slot, board.objectIn? position slot = other.objectIn? position slot) := by
  intro h
  have hbytes : lonely.bytes = (blank 0 1 1 1).bytes := by decide
  have hclaim := h lonely (blank 0 1 1 1) 1 (by decide) (by decide) (by decide)
    (by decide)
  have hobject := (hclaim.mp hbytes).2.2 ⟨0, 0⟩ 0
  revert hobject
  decide

end Board

end TilePuzzle
