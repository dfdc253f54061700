import TilePuzzle.Board

/-!
# The slots of a cell

What every edit of a cell does to what can be seen of it: the number of its slots and the occupant
of each layer. Settling forgets the intents and nothing else, so it commutes with every edit; that
is what lets a turn be taken back from a record in which intents have no inverse.

## Representation

A cell is a list of slots, and a layer is the place of its slot. A layer number is a sixteen-bit
word, so the list of occupants is faithful to the slots only up to 65536 of them. The bound is a
hypothesis where it matters.
-/

namespace TilePuzzle

namespace LayerId

/-- The largest number of layers that sixteen-bit numbers tell apart. -/
def bound : Nat := 65536

@[simp] theorem index_inj {a b : LayerId} : a.index = b.index ↔ a = b := by
  cases a; cases b; simp [index, UInt16.toNat_inj]

theorem index_ofIndex {n : Nat} (h : n < bound) : (ofIndex n).index = n := by
  rw [index, ofIndex]
  exact Nat.mod_eq_of_lt h

end LayerId

namespace Occupant

/-- The occupant without its intent. -/
def settle (occupant : Occupant) : Occupant := .still occupant.object

theorem settle_eq_self {occupant : Occupant} (h : occupant.movement = none) :
    occupant.settle = occupant := by
  cases occupant; cases h; rfl

end Occupant

namespace Cell

variable {cell : Cell} {layer : LayerId} {occupant : Occupant}

/-! ## The number of slots -/

@[simp] theorem length_setSlot (cell : Cell) (layer : LayerId) (slot : Option Occupant) :
    (cell.setSlot layer slot).slots.length = cell.slots.length := List.length_set

@[simp] theorem length_take (cell : Cell) (layer : LayerId) :
    (cell.take layer).slots.length = cell.slots.length := List.length_set

@[simp] theorem length_mapOccupants (f : Occupant → Occupant) (cell : Cell) :
    (cell.mapOccupants f).slots.length = cell.slots.length := List.length_map _

/-! ## The occupant of a layer -/

theorem occupant?_eq_some_iff :
    cell.occupant? layer = some occupant ↔ cell.slots[layer.index]? = some (some occupant) := by
  rw [occupant?, Option.join_eq_some_iff]

theorem lt_length_of_occupant? (h : cell.occupant? layer = some occupant) :
    layer.index < cell.slots.length := by
  rw [occupant?_eq_some_iff] at h
  exact (List.getElem?_eq_some_iff.mp h).1

theorem occupant?_setSlot_self (h : layer.index < cell.slots.length) (slot : Option Occupant) :
    (cell.setSlot layer slot).occupant? layer = slot := by
  rw [occupant?, setSlot, List.getElem?_set_self h]
  rfl

theorem occupant?_setSlot_ne {other : LayerId} (h : other ≠ layer) (slot : Option Occupant) :
    (cell.setSlot layer slot).occupant? other = cell.occupant? other := by
  have hne : layer.index ≠ other.index := fun he ↦ h (LayerId.index_inj.mp he.symm)
  rw [occupant?, setSlot, List.getElem?_set_ne hne, occupant?]

/-- After a layer is emptied nothing is there, whether or not the cell has a slot for it. -/
@[simp] theorem occupant?_take_self : (cell.take layer).occupant? layer = none := by
  by_cases h : layer.index < cell.slots.length
  · exact occupant?_setSlot_self h none
  · rw [occupant?, List.getElem?_eq_none (by rw [length_take]; omega)]
    rfl

theorem occupant?_setSlot_eq_some {slot : Option Occupant} {other : LayerId}
    (h : (cell.setSlot layer slot).occupant? other = some occupant) :
    other = layer ∧ slot = some occupant ∨ cell.occupant? other = some occupant := by
  by_cases ho : other = layer
  · subst ho
    have hlt := lt_length_of_occupant? h
    rw [length_setSlot] at hlt
    rw [occupant?_setSlot_self hlt] at h
    exact Or.inl ⟨rfl, h⟩
  · rw [occupant?_setSlot_ne ho] at h
    exact Or.inr h

@[simp] theorem occupant?_mapOccupants (f : Occupant → Occupant) (cell : Cell) (layer : LayerId) :
    (cell.mapOccupants f).occupant? layer = (cell.occupant? layer).map f := by
  rw [occupant?, mapOccupants, List.getElem?_map, occupant?]
  cases cell.slots[layer.index]? with
  | none => rfl
  | some slot => rfl

/-! ## Edits of one layer -/

@[simp] theorem setSlot_setSlot (cell : Cell) (layer : LayerId) (slot slot' : Option Occupant) :
    (cell.setSlot layer slot).setSlot layer slot' = cell.setSlot layer slot' := by
  rw [setSlot, setSlot, setSlot, List.set_set]

@[simp] theorem put_take (cell : Cell) (layer : LayerId) (occupant : Occupant) :
    (cell.take layer).put layer occupant = cell.put layer occupant := setSlot_setSlot ..

@[simp] theorem put_put (cell : Cell) (layer : LayerId) (before after : Occupant) :
    (cell.put layer before).put layer after = cell.put layer after := setSlot_setSlot ..

@[simp] theorem take_put (cell : Cell) (layer : LayerId) (occupant : Occupant) :
    (cell.put layer occupant).take layer = cell.take layer := setSlot_setSlot ..

@[simp] theorem setSlot_occupant? (cell : Cell) (layer : LayerId) :
    cell.setSlot layer (cell.occupant? layer) = cell := by
  have hset : cell.slots.set layer.index (cell.occupant? layer) = cell.slots := by
    by_cases h : layer.index < cell.slots.length
    · simp [occupant?, h]
    · rw [List.set_eq_of_length_le (by omega)]
  rw [setSlot, hset]

theorem take_eq_self (h : cell.occupant? layer = none) : cell.take layer = cell := by
  rw [take, ← h, setSlot_occupant?]

theorem put_eq_self (h : cell.occupant? layer = some occupant) :
    cell.put layer occupant = cell := by
  rw [put, ← h, setSlot_occupant?]

/-! ## Settling -/

theorem settle_eq (cell : Cell) : cell.settle = cell.mapOccupants Occupant.settle := rfl

@[simp] theorem length_settle (cell : Cell) : cell.settle.slots.length = cell.slots.length :=
  length_mapOccupants ..

@[simp] theorem occupant?_settle (cell : Cell) (layer : LayerId) :
    cell.settle.occupant? layer = (cell.occupant? layer).map Occupant.settle :=
  occupant?_mapOccupants ..

theorem mapOccupants_setSlot (f : Occupant → Occupant) (cell : Cell) (layer : LayerId)
    (slot : Option Occupant) :
    (cell.setSlot layer slot).mapOccupants f =
      (cell.mapOccupants f).setSlot layer (slot.map f) := by
  rw [mapOccupants, setSlot, mapOccupants, setSlot, List.map_set]

@[simp] theorem settle_put (cell : Cell) (layer : LayerId) (occupant : Occupant) :
    (cell.put layer occupant).settle = cell.settle.put layer occupant.settle :=
  mapOccupants_setSlot ..

@[simp] theorem settle_take (cell : Cell) (layer : LayerId) :
    (cell.take layer).settle = cell.settle.take layer := mapOccupants_setSlot ..

@[simp] theorem settle_settle (cell : Cell) : cell.settle.settle = cell.settle := by
  rw [settle_eq, settle_eq, mapOccupants, mapOccupants, List.map_map]
  congr 1
  refine List.map_congr_left fun slot _ ↦ ?_
  cases slot with
  | none => rfl
  | some occupant => rfl

theorem settle_put_intent (h : cell.occupant? layer = some occupant) (movement : Option Movement) :
    (cell.put layer ⟨occupant.object, movement⟩).settle = cell.settle := by
  rw [settle_put]
  refine put_eq_self ?_
  rw [occupant?_settle, h]
  rfl

@[simp] theorem settle_mark (set : ObjectSet) (movement : Movement) (cell : Cell) :
    (cell.mark set movement).settle = cell.settle := by
  rw [settle_eq, settle_eq, mark, mapOccupants, mapOccupants, mapOccupants, List.map_map]
  congr 1
  refine List.map_congr_left fun slot _ ↦ ?_
  cases slot with
  | none => rfl
  | some occupant =>
    simp only [Function.comp_apply, Option.map_some, Option.some.injEq]
    split <;> rfl

/-! ## The list of occupants -/

theorem mem_occupants (hcell : cell.slots.length ≤ LayerId.bound) :
    (layer, occupant) ∈ cell.occupants ↔ cell.occupant? layer = some occupant := by
  rw [occupants, List.mem_filterMap, occupant?_eq_some_iff]
  constructor
  · rintro ⟨⟨slot, i⟩, hmem, hslot⟩
    obtain ⟨o, rfl, ho⟩ := Option.map_eq_some_iff.mp hslot
    obtain ⟨rfl, rfl⟩ := Prod.mk.inj ho
    have hget := List.mem_zipIdx_iff_getElem?.mp hmem
    have hlt := (List.getElem?_eq_some_iff.mp hget).1
    rwa [LayerId.index_ofIndex (by omega)]
  · intro h
    refine ⟨(some occupant, layer.index), List.mem_zipIdx_iff_getElem?.mpr h, ?_⟩
    have hlt := (List.getElem?_eq_some_iff.mp h).1
    have hlayer : LayerId.ofIndex layer.index = layer :=
      LayerId.index_inj.mp (LayerId.index_ofIndex (by omega))
    simp only [hlayer, Option.map_some]

theorem pairwise_occupants (hcell : cell.slots.length ≤ LayerId.bound) :
    cell.occupants.Pairwise fun a b ↦ a.1 ≠ b.1 := by
  rw [occupants, List.pairwise_filterMap]
  have hidx : cell.slots.zipIdx.Pairwise fun a b ↦ a.2 < b.2 := by
    rw [← List.pairwise_map, List.zipIdx_map_snd]
    exact List.pairwise_lt_range'
  refine hidx.imp_of_mem ?_
  rintro ⟨slot, i⟩ ⟨slot', j⟩ hi hj hij ⟨layer, o⟩ ho ⟨layer', o'⟩ ho' heq
  have hi := (List.getElem?_eq_some_iff.mp (List.mem_zipIdx_iff_getElem?.mp hi)).1
  have hj := (List.getElem?_eq_some_iff.mp (List.mem_zipIdx_iff_getElem?.mp hj)).1
  obtain ⟨_, _, ho⟩ := Option.map_eq_some_iff.mp ho
  obtain ⟨_, _, ho'⟩ := Option.map_eq_some_iff.mp ho'
  have hindex : (LayerId.ofIndex i).index = (LayerId.ofIndex j).index := by
    rw [(Prod.mk.inj ho).1, (Prod.mk.inj ho').1]
    exact congrArg LayerId.index heq
  rw [LayerId.index_ofIndex (by omega), LayerId.index_ofIndex (by omega)] at hindex
  exact absurd hindex (Nat.ne_of_lt hij)

end Cell

end TilePuzzle
