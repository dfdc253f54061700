import Mathlib.Data.List.Forall2
import TilePuzzle.Change

/-!
# Transfers

While a rule is applied, a change only says that an object came into a cell or that it went out of
one. Which objects did both is known when the firing is complete, and then every change of an object
is labelled with it.

## What labelling keeps

Labelling touches nothing but this distinction (`CellChange.Relabels`). Whether an object came or
went is the same before and after, so the labels agree for all changes of an object, in whichever
cell they are, and labelling once more finds nothing to change.
-/

namespace TilePuzzle

namespace ChangeKind

variable {kind : ChangeKind}

/-! ## Labels -/

@[simp] theorem isPlacement_relabel (transferred : Bool) (kind : ChangeKind) :
    (kind.relabel transferred).isPlacement = kind.isPlacement := by
  cases kind <;> cases transferred <;> rfl

@[simp] theorem isRemoval_relabel (transferred : Bool) (kind : ChangeKind) :
    (kind.relabel transferred).isRemoval = kind.isRemoval := by
  cases kind <;> cases transferred <;> rfl

@[simp] theorem movement?_relabel (transferred : Bool) (kind : ChangeKind) :
    (kind.relabel transferred).movement? = kind.movement? := by
  cases kind <;> cases transferred <;> rfl

@[simp] theorem relabel_relabel (transferred : Bool) (kind : ChangeKind) :
    (kind.relabel transferred).relabel transferred = kind.relabel transferred := by
  cases kind <;> cases transferred <;> rfl

theorem relabel_of_isPlacement (h : kind.isPlacement = true) (transferred : Bool) :
    kind.relabel transferred = if transferred then .appear else .create := by
  cases kind
  case appear => rfl
  case create => rfl
  all_goals exact absurd h Bool.false_ne_true

theorem relabel_of_isRemoval (h : kind.isRemoval = true) (transferred : Bool) :
    kind.relabel transferred = if transferred then .disappear else .destroy := by
  cases kind
  case disappear => rfl
  case destroy => rfl
  all_goals exact absurd h Bool.false_ne_true

theorem relabel_eq_self (hplacement : kind.isPlacement = false) (hremoval : kind.isRemoval = false)
    (transferred : Bool) : kind.relabel transferred = kind := by
  cases kind
  case move movement => rfl
  case stationary => rfl
  case appear => exact absurd hplacement.symm Bool.false_ne_true
  case create => exact absurd hplacement.symm Bool.false_ne_true
  case disappear => exact absurd hremoval.symm Bool.false_ne_true
  case destroy => exact absurd hremoval.symm Bool.false_ne_true

/-! ## What the changes of one object tell -/

/-- Some changes of an object tell that it came from one place to another. -/
structure TellTransfer (kinds : List ChangeKind) : Prop where
  exists_placement : ∃ kind ∈ kinds, kind.isPlacement = true
  exists_removal : ∃ kind ∈ kinds, kind.isRemoval = true
  eq_appear : ∀ kind ∈ kinds, kind.isPlacement = true → kind = .appear
  eq_disappear : ∀ kind ∈ kinds, kind.isRemoval = true → kind = .disappear

/-- Some changes of an object tell that it only came or only went, if it did either. -/
structure TellNoTransfer (kinds : List ChangeKind) : Prop where
  one_sort : (∀ kind ∈ kinds, kind.isPlacement = false) ∨ ∀ kind ∈ kinds, kind.isRemoval = false
  eq_create : ∀ kind ∈ kinds, kind.isPlacement = true → kind = .create
  eq_destroy : ∀ kind ∈ kinds, kind.isRemoval = true → kind = .destroy

variable {kinds : List ChangeKind}

theorem tellTransfer_map_relabel (hplacement : ∃ kind ∈ kinds, kind.isPlacement = true)
    (hremoval : ∃ kind ∈ kinds, kind.isRemoval = true) :
    TellTransfer (kinds.map (relabel true)) where
  exists_placement := by
    obtain ⟨kind, hkind, h⟩ := hplacement
    exact ⟨_, List.mem_map_of_mem hkind, (isPlacement_relabel true kind).trans h⟩
  exists_removal := by
    obtain ⟨kind, hkind, h⟩ := hremoval
    exact ⟨_, List.mem_map_of_mem hkind, (isRemoval_relabel true kind).trans h⟩
  eq_appear := by
    rw [List.forall_mem_map]
    intro kind _ h
    rw [isPlacement_relabel] at h
    exact relabel_of_isPlacement h true
  eq_disappear := by
    rw [List.forall_mem_map]
    intro kind _ h
    rw [isRemoval_relabel] at h
    exact relabel_of_isRemoval h true

theorem tellNoTransfer_map_relabel
    (h : (∀ kind ∈ kinds, kind.isPlacement = false) ∨ ∀ kind ∈ kinds, kind.isRemoval = false) :
    TellNoTransfer (kinds.map (relabel false)) where
  one_sort := by
    rw [List.forall_mem_map, List.forall_mem_map]
    simpa only [isPlacement_relabel, isRemoval_relabel] using h
  eq_create := by
    rw [List.forall_mem_map]
    intro kind _ h
    rw [isPlacement_relabel] at h
    exact relabel_of_isPlacement h false
  eq_destroy := by
    rw [List.forall_mem_map]
    intro kind _ h
    rw [isRemoval_relabel] at h
    exact relabel_of_isRemoval h false

end ChangeKind

/-! ## Changes that differ in their labels only -/

/-- A change of the same object and of the same nature as another one, and the same change unless
the object came or went. -/
structure Change.Relabels (relabelled change : Change) : Prop where
  object_eq : relabelled.object = change.object
  isPlacement_eq : relabelled.kind.isPlacement = change.kind.isPlacement
  isRemoval_eq : relabelled.kind.isRemoval = change.kind.isRemoval
  kind_eq : change.kind.isPlacement = false → change.kind.isRemoval = false →
    relabelled.kind = change.kind

theorem Change.relabels (transferred : Bool) (change : Change) :
    Change.Relabels { change with kind := change.kind.relabel transferred } change where
  object_eq := rfl
  isPlacement_eq := ChangeKind.isPlacement_relabel transferred change.kind
  isRemoval_eq := ChangeKind.isRemoval_relabel transferred change.kind
  kind_eq hplacement hremoval := ChangeKind.relabel_eq_self hplacement hremoval transferred

/-- The changes of the same cell, in the same order, with labels of their own. -/
structure CellChange.Relabels (relabelled cell : CellChange) : Prop where
  position_eq : relabelled.position = cell.position
  changes : List.Forall₂ Change.Relabels relabelled.changes cell.changes

/-! ## Labelling a firing -/

/-- A change labelled by what all changes of a firing say of its object. -/
def Change.labelled (all : List Change) (change : Change) : Change :=
  { change with kind := change.kind.relabel (isTransferred all change.object) }

/-- The changes of a cell labelled by all changes of a firing. -/
def CellChange.labelled (all : List Change) (cell : CellChange) : CellChange :=
  { cell with changes := cell.changes.map (Change.labelled all) }

theorem labelTransfers_eq (cells : List CellChange) :
    labelTransfers cells =
      cells.map (CellChange.labelled (cells.flatMap CellChange.changes)) := rfl

section Labelled

variable {all all' : List Change}
  (h : ∀ object, isTransferred all' object = isTransferred all object)

include h

@[simp] theorem Change.labelled_labelled (change : Change) :
    (change.labelled all).labelled all' = change.labelled all := by
  rw [labelled, h]
  dsimp only [labelled]
  rw [ChangeKind.relabel_relabel]

@[simp] theorem CellChange.labelled_labelled (cell : CellChange) :
    (cell.labelled all).labelled all' = cell.labelled all := by
  rw [labelled, labelled, List.map_map]
  congr 1
  apply List.map_congr_left
  intro change _
  exact change.labelled_labelled h

end Labelled

theorem flatMap_changes_labelTransfers (cells : List CellChange) :
    (labelTransfers cells).flatMap CellChange.changes =
      (cells.flatMap CellChange.changes).map
        (Change.labelled (cells.flatMap CellChange.changes)) := by
  rw [labelTransfers_eq, List.flatMap_map, List.map_flatMap]
  rfl

/-- The kinds of the changes of an object, in their order. -/
def kindsOf (cells : List CellChange) (object : ObjectId) : List ChangeKind :=
  ((cells.flatMap CellChange.changes).filter fun change ↦ change.object = object).map Change.kind

theorem any_object_iff (cells : List CellChange) (object : ObjectId) (sort : ChangeKind → Bool) :
    ((cells.flatMap CellChange.changes).any fun change ↦
        change.object == object && sort change.kind) = true ↔
      ∃ kind ∈ kindsOf cells object, sort kind = true := by
  simp only [kindsOf, List.any_eq_true, List.mem_map, List.mem_filter, Bool.and_eq_true,
    beq_iff_eq, decide_eq_true_eq]
  constructor
  · rintro ⟨change, hchange, hobject, hsort⟩
    exact ⟨change.kind, ⟨change, ⟨hchange, hobject⟩, rfl⟩, hsort⟩
  · rintro ⟨_, ⟨change, ⟨hchange, hobject⟩, rfl⟩, hsort⟩
    exact ⟨change, hchange, hobject, hsort⟩

theorem isTransferred_iff (cells : List CellChange) (object : ObjectId) :
    isTransferred (cells.flatMap CellChange.changes) object = true ↔
      (∃ kind ∈ kindsOf cells object, kind.isPlacement = true) ∧
        ∃ kind ∈ kindsOf cells object, kind.isRemoval = true := by
  rw [isTransferred, Bool.and_eq_true, any_object_iff, any_object_iff]

/-- All changes of an object get the same label. -/
theorem kindsOf_labelTransfers (cells : List CellChange) (object : ObjectId) :
    kindsOf (labelTransfers cells) object =
      (kindsOf cells object).map
        (.relabel (isTransferred (cells.flatMap CellChange.changes) object)) := by
  rw [kindsOf, kindsOf, flatMap_changes_labelTransfers, List.filter_map, List.map_map, List.map_map]
  apply List.map_congr_left
  intro change hchange
  -- every change is labelled by its own object, which is the same for all of these
  have hobject : change.object = object := of_decide_eq_true (List.mem_filter.mp hchange).2
  simp [Change.labelled, hobject]

/-- **Labelling does not change who is transferred**, as every change keeps its nature. -/
theorem isTransferred_labelTransfers (cells : List CellChange) (object : ObjectId) :
    isTransferred ((labelTransfers cells).flatMap CellChange.changes) object =
      isTransferred (cells.flatMap CellChange.changes) object := by
  rw [Bool.eq_iff_iff, isTransferred_iff, isTransferred_iff, kindsOf_labelTransfers]
  simp only [List.mem_map, exists_exists_and_eq_and, ChangeKind.isPlacement_relabel,
    ChangeKind.isRemoval_relabel]

theorem relabels_labelTransfers (cells : List CellChange) :
    List.Forall₂ CellChange.Relabels (labelTransfers cells) cells := by
  rw [labelTransfers_eq, List.forall₂_map_left_iff, List.forall₂_same]
  intro cell _
  refine ⟨rfl, ?_⟩
  rw [CellChange.labelled, List.forall₂_map_left_iff, List.forall₂_same]
  intro change _
  exact change.relabels _

theorem labelTransfers_labelTransfers (cells : List CellChange) :
    labelTransfers (labelTransfers cells) = labelTransfers cells := by
  calc labelTransfers (labelTransfers cells)
      = (cells.map (CellChange.labelled (cells.flatMap CellChange.changes))).map
          (CellChange.labelled ((labelTransfers cells).flatMap CellChange.changes)) := rfl
    _ = cells.map (CellChange.labelled (cells.flatMap CellChange.changes)) := by
        rw [List.map_map]
        apply List.map_congr_left
        intro cell _
        exact cell.labelled_labelled (isTransferred_labelTransfers cells)
    _ = labelTransfers cells := rfl

/-- **Transfers are told apart for the whole firing.** Labelling keeps the cells, the objects, their
order, the writes of intents and the nature of every change, and a second time it changes nothing.
Afterwards the changes of any object either all tell that it was transferred, and it came and went;
or all tell that it was not, and it did one of the two at most. -/
theorem labelTransfers_tells (cells : List CellChange) :
    List.Forall₂ CellChange.Relabels (labelTransfers cells) cells ∧
    labelTransfers (labelTransfers cells) = labelTransfers cells ∧
    ∀ object, ChangeKind.TellTransfer (kindsOf (labelTransfers cells) object) ∨
      ChangeKind.TellNoTransfer (kindsOf (labelTransfers cells) object) := by
  refine ⟨relabels_labelTransfers cells, labelTransfers_labelTransfers cells, ?_⟩
  intro object
  rw [kindsOf_labelTransfers]
  rcases h : isTransferred (cells.flatMap CellChange.changes) object with _ | _
  · right
    apply ChangeKind.tellNoTransfer_map_relabel
    rw [← Bool.not_eq_true, isTransferred_iff, not_and_or] at h
    simpa only [not_exists, not_and, Bool.not_eq_true] using h
  · left
    obtain ⟨hplacement, hremoval⟩ := (isTransferred_iff cells object).mp h
    exact ChangeKind.tellTransfer_map_relabel hplacement hremoval

/-- The first object moves to the second cell, where another one is created. -/
example :
    labelTransfers [⟨⟨0, 0⟩, [⟨⟨1⟩, .destroy⟩]⟩, ⟨⟨1, 0⟩, [⟨⟨1⟩, .create⟩, ⟨⟨2⟩, .create⟩]⟩] =
      [⟨⟨0, 0⟩, [⟨⟨1⟩, .disappear⟩]⟩, ⟨⟨1, 0⟩, [⟨⟨1⟩, .appear⟩, ⟨⟨2⟩, .create⟩]⟩] := by
  decide

end TilePuzzle
