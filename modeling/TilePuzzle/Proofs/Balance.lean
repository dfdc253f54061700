import TilePuzzle.Proofs.Turn

/-!
# Comings and goings

A record says of every object when it came into a cell and when it went out of one; the rest of it
are intents, and these do not outlast the turn. So what a turn did to a board in the end is a matter
of counting: where an object came as often as it went, it stands there after the turn exactly if it
stood there before.

A record is *balanced* when this is so of every object in every cell. Rules may fire all the same:
they may give and take intents only, or undo what others did.

## The invariant

An object stands in a cell once or not at all; this number is its *tally*. A change that is replayed
is booked for its own object in its own cell (`tally_of_replayChange?`), and so the tally after a
replay, with all that went, is the tally before it, with all that came (`tally_of_replay?`). In
cells that fit a game an object has one layer only, so the tallies tell the objects of a board
(`settle_eq_iff_tally`).
-/

namespace TilePuzzle

/-! ## Books -/

/-- How often a change of some kinds was made to an object in the cell at a position. -/
def occurrences (kinds : ChangeKind → Bool) (changes : List (Position × Change))
    (position : Position) (object : ObjectId) : Nat :=
  changes.countP fun change ↦
    change.1 == position && change.2.object == object && kinds change.2.kind

theorem occurrences_cons (kinds : ChangeKind → Bool) (change : Position × Change)
    (changes : List (Position × Change)) (position : Position) (object : ObjectId) :
    occurrences kinds (change :: changes) position object =
      occurrences kinds [change] position object + occurrences kinds changes position object := by
  rw [← List.singleton_append, occurrences, List.countP_append]
  rfl

/-- Every object came into every cell as often as it went out of it. -/
def IsBalanced (subturns : List Subturn) : Prop :=
  ∀ position object,
    occurrences ChangeKind.isPlacement (placedChanges subturns) position object =
      occurrences ChangeKind.isRemoval (placedChanges subturns) position object

theorem isBalanced_nil : IsBalanced [] := fun _ _ ↦ rfl

/-- Nothing has to be counted but the objects and the cells that the record names. -/
theorem isBalanced_iff (subturns : List Subturn) : IsBalanced subturns ↔
    ∀ change ∈ placedChanges subturns,
      occurrences ChangeKind.isPlacement (placedChanges subturns) change.1 change.2.object =
        occurrences ChangeKind.isRemoval (placedChanges subturns) change.1 change.2.object := by
  constructor
  · exact fun h change _ ↦ h change.1 change.2.object
  · intro h position object
    by_cases hnamed : ∃ change ∈ placedChanges subturns,
        change.1 = position ∧ change.2.object = object
    · obtain ⟨change, hchange, rfl, rfl⟩ := hnamed
      exact h change hchange
    · have hnone : ∀ kinds, occurrences kinds (placedChanges subturns) position object = 0 := by
        intro kinds
        refine List.countP_eq_zero.mpr fun change hchange hcounted ↦ hnamed ⟨change, hchange, ?_⟩
        rw [Bool.and_eq_true, Bool.and_eq_true, beq_iff_eq, beq_iff_eq] at hcounted
        exact hcounted.1
      rw [hnone, hnone]

instance (subturns : List Subturn) : Decidable (IsBalanced subturns) :=
  decidable_of_iff' _ (isBalanced_iff subturns)

/-! ## The objects of a cell -/

theorem ChangeKind.isRemoval_of_isPlacement {kind : ChangeKind} (h : kind.isPlacement = true) :
    kind.isRemoval = false := by
  cases kind <;> first | rfl | cases h

namespace Cell

/-- The object on a layer of a cell. -/
def object? (cell : Cell) (layer : LayerId) : Option ObjectId :=
  (cell.occupant? layer).map Occupant.object

/-- How often an object stands on a layer of a cell: once or not at all. -/
def tally (cell : Cell) (layer : LayerId) (object : ObjectId) : Nat :=
  if cell.object? layer = some object then 1 else 0

variable {game : Game} {cell cell' : Cell} {layer : LayerId}

theorem tally_eq_iff {object : ObjectId} : cell'.tally layer object = cell.tally layer object ↔
    (cell'.object? layer = some object ↔ cell.object? layer = some object) := by
  rw [tally, tally]
  split <;> split <;> simp_all

@[simp] theorem object?_settle (cell : Cell) (layer : LayerId) :
    cell.settle.object? layer = cell.object? layer := map_object_occupant?_settle cell layer

theorem layer?_of_object? (hcell : cell.Fits game) {object : ObjectId}
    (h : cell.object? layer = some object) : game.layer? object = some layer := by
  obtain ⟨occupant, hocc, rfl⟩ := Option.map_eq_some_iff.mp h
  exact hcell.layer?_eq layer occupant hocc

/-- Cells with as many slots and the same objects differ in their intents only. -/
theorem settle_eq_of_object? (hlength : cell'.slots.length = cell.slots.length)
    (hbound : cell.slots.length ≤ LayerId.bound)
    (h : ∀ layer, cell'.object? layer = cell.object? layer) : cell'.settle = cell.settle := by
  refine congrArg Cell.mk (List.ext_getElem? fun place ↦ ?_)
  rw [List.getElem?_map, List.getElem?_map]
  by_cases hplace : place < cell.slots.length
  · have hindex : (LayerId.ofIndex place).index = place := LayerId.index_ofIndex (by omega)
    have hsame := h (.ofIndex place)
    rw [object?, object?, occupant?, occupant?, hindex, List.getElem?_eq_getElem hplace,
      List.getElem?_eq_getElem (hlength ▸ hplace), Option.join_some, Option.join_some] at hsame
    have hslots := congrArg (Option.map Occupant.still) hsame
    rw [Option.map_map, Option.map_map] at hslots
    rw [List.getElem?_eq_getElem hplace, List.getElem?_eq_getElem (hlength ▸ hplace)]
    exact congrArg some hslots
  · rw [List.getElem?_eq_none (by omega), List.getElem?_eq_none (by omega)]

/-- The objects of a cell before and after one change: an object comes to where none stood, and one
that goes leaves its layer empty. -/
theorem object?_of_replay? {change : Change} (h : cell.replay? layer change = some cell') :
    cell.object? layer = (if change.kind.isPlacement then none else some change.object) ∧
      cell'.object? layer = (if change.kind.isRemoval then none else some change.object) ∧
      ∀ other, other ≠ layer → cell'.object? other = cell.object? other := by
  have hother : ∀ {slot other}, other ≠ layer →
      (cell.setSlot layer slot).object? other = cell.object? other := by
    intro slot other hne
    rw [object?, occupant?_setSlot_ne hne]
    rfl
  rcases replay?_cases h with ⟨hplace, hempty, hlt, rfl⟩ |
    ⟨hplace, occupant, hocc, hobject, ⟨hremoval, rfl⟩ | ⟨hremoval, rfl⟩⟩
  · have hput := occupant?_setSlot_self hlt (some (.still change.object))
    refine ⟨?_, ?_, fun other ↦ hother⟩
    · rw [object?, hempty, hplace]
      rfl
    · rw [object?, put, hput, ChangeKind.isRemoval_of_isPlacement hplace]
      rfl
  · refine ⟨?_, ?_, fun other ↦ hother⟩
    · rw [object?, hocc, hplace, ← hobject]
      rfl
    · rw [object?, occupant?_take_self, hremoval]
      rfl
  · have hput := occupant?_setSlot_self (lt_length_of_occupant? hocc)
      (some ⟨occupant.object, change.kind.movement?⟩)
    refine ⟨?_, ?_, fun other ↦ hother⟩
    · rw [object?, hocc, hplace, ← hobject]
      rfl
    · rw [object?, put, hput, hremoval, ← hobject]
      rfl

theorem tally_of_replay? {change : Change} (h : cell.replay? layer change = some cell')
    {other : LayerId} {object : ObjectId} (hlayer : change.object = object → other = layer) :
    cell'.tally other object + (change.object == object && change.kind.isRemoval).toNat =
      cell.tally other object + (change.object == object && change.kind.isPlacement).toNat := by
  obtain ⟨hbefore, hafter, hother⟩ := object?_of_replay? h
  by_cases hsame : other = layer
  · subst hsame
    rw [tally, tally, hbefore, hafter]
    by_cases hobject : change.object = object
    · subst hobject
      rw [beq_self_eq_true, Bool.true_and, Bool.true_and]
      cases change.kind.isRemoval <;> cases change.kind.isPlacement <;> simp
    · rw [beq_false_of_ne hobject, Bool.false_and, Bool.false_and]
      cases change.kind.isRemoval <;> cases change.kind.isPlacement <;> simp [hobject]
  · have hobject : (change.object == object) = false := beq_false_of_ne (mt hlayer hsame)
    rw [tally, tally, hother other hsame, hobject]
    rfl

end Cell

/-! ## The objects of a board -/

namespace Board

variable {game : Game} {board board' : Board}

/-- How often an object stands in the cell at a position: once or not at all. -/
def tally (game : Game) (board : Board) (position : Position) (object : ObjectId) : Nat :=
  match game.layer? object, board.cell? position with
  | some layer, some cell => cell.tally layer object
  | _, _ => 0

theorem tally_eq {position : Position} {object : ObjectId} {layer : LayerId} {cell : Cell}
    (hlayer : game.layer? object = some layer) (hcell : board.cell? position = some cell) :
    board.tally game position object = cell.tally layer object := by
  rw [tally, hlayer, hcell]

@[simp] theorem tally_settle (game : Game) (board : Board) (position : Position)
    (object : ObjectId) :
    board.settle.tally game position object = board.tally game position object := by
  rw [tally, tally, cell?_settle]
  cases game.layer? object with
  | none => rfl
  | some layer =>
    cases board.cell? position with
    | none => rfl
    | some cell => exact Cell.tally_eq_iff.mpr (by rw [Cell.object?_settle])

theorem tally_of_replayChange? {change : Position × Change}
    (h : board.replayChange? game change = some board') (position : Position) (object : ObjectId) :
    board'.tally game position object +
        occurrences ChangeKind.isRemoval [change] position object =
      board.tally game position object +
        occurrences ChangeKind.isPlacement [change] position object := by
  obtain ⟨layer, cell, cell', hlayer, hcell, hreplay, rfl⟩ := replayChange?_eq_some_iff.mp h
  have hsingle : ∀ kinds, occurrences kinds [change] position object =
      (change.1 == position && (change.2.object == object && kinds change.2.kind)).toNat := by
    intro kinds
    rw [occurrences, List.countP_singleton, Bool.and_assoc]
    cases change.1 == position && (change.2.object == object && kinds change.2.kind) <;> rfl
  rw [hsingle, hsingle]
  by_cases hposition : change.1 = position
  · subst hposition
    rw [beq_self_eq_true, Bool.true_and, Bool.true_and, tally, tally, hcell,
      cell?_setCell_self (contains_of_cell? hcell)]
    cases hother : game.layer? object with
    | none =>
      have hobject : (change.2.object == object) = false := by
        refine beq_false_of_ne fun heq ↦ ?_
        rw [heq, hother] at hlayer
        cases hlayer
      rw [hobject]
      rfl
    | some other =>
      refine Cell.tally_of_replay? hreplay fun heq ↦ ?_
      rw [heq, hother] at hlayer
      exact Option.some.inj hlayer
  · rw [beq_false_of_ne hposition, tally, tally, cell?_setCell_ne (Ne.symm hposition)]
    rfl

/-- **The books of a replay**: an object stands in a cell after it as often as before it, with what
came added and with what went taken off. -/
theorem tally_of_replay? {changes : List (Position × Change)}
    (h : board.replay? game changes = some board') (position : Position) (object : ObjectId) :
    board'.tally game position object + occurrences ChangeKind.isRemoval changes position object =
      board.tally game position object +
        occurrences ChangeKind.isPlacement changes position object := by
  induction changes generalizing board with
  | nil => rw [Option.some.inj h]; rfl
  | cons change changes ih =>
    rw [replay?_cons] at h
    obtain ⟨mid, hmid, h⟩ := Option.bind_eq_some_iff.mp h
    have hfirst := tally_of_replayChange? hmid position object
    have hrest := ih h
    have hwent := occurrences_cons ChangeKind.isRemoval change changes position object
    have hcame := occurrences_cons ChangeKind.isPlacement change changes position object
    omega

/-- Boards of one shape that fit are the same up to intents if the same objects stand in the same
cells. -/
theorem settle_eq_iff_tally (hgame : game.IsLayered) (hboard : board.Fits game)
    (hboard' : board'.Fits game) (hshape : board.SameShape board') :
    board'.settle = board.settle ↔
      ∀ position object, board'.tally game position object = board.tally game position object := by
  constructor
  · intro h position object
    rw [← tally_settle, h, tally_settle]
  · intro h
    have hsettled : board.settle.SameShape board'.settle :=
      (sameShape_settle board).symm.trans (hshape.trans (sameShape_settle board'))
    refine eq_of_cell? hsettled fun position ↦ ?_
    rw [cell?_settle, cell?_settle]
    have hcells := hshape.contains position
    rw [← isSome_cell?, ← isSome_cell?] at hcells
    cases hcell : board.cell? position with
    | none =>
      rw [hcell, Option.isSome_none, Option.isSome_eq_false_iff,
        Option.isNone_iff_eq_none] at hcells
      rw [hcells]
    | some cell =>
      rw [hcell] at hcells
      obtain ⟨cell', hcell'⟩ := Option.isSome_iff_exists.mp hcells
      have hfits := hboard.cell? hcell
      have hfits' := hboard'.cell? hcell'
      have hlength : cell'.slots.length = cell.slots.length :=
        hfits'.length_slots.trans hfits.length_slots.symm
      -- an object can be seen on its own layer only
      have hsame : ∀ layer object, game.layer? object = some layer →
          (cell'.object? layer = some object ↔ cell.object? layer = some object) := by
        intro layer object hlayer
        have htally := h position object
        rw [tally_eq hlayer hcell', tally_eq hlayer hcell] at htally
        exact Cell.tally_eq_iff.mp htally
      rw [hcell']
      refine congrArg some (Cell.settle_eq_of_object? hlength (hfits.length_le hgame) ?_)
      intro layer
      refine Option.ext fun object ↦ ⟨fun hobject ↦ ?_, fun hobject ↦ ?_⟩
      · exact (hsame layer object (Cell.layer?_of_object? hfits' hobject)).mp hobject
      · exact (hsame layer object (Cell.layer?_of_object? hfits hobject)).mpr hobject

end Board

/-! ## The books of a turn -/

/-- **A turn leaves a board as it was exactly if its record is balanced.** -/
theorem Game.board_runTurn_eq_iff {game : Game} (hgame : game.IsLayered) {board : Board}
    (hboard : board.Fits game) (hstill : board.IsStill) (maxRewrites : Nat)
    (input : Option Movement) :
    (game.runTurn maxRewrites input board).board = board ↔
      IsBalanced (game.runTurn maxRewrites input board).record.subturns := by
  have hsettle := Board.settle_eq_self hstill
  cases h : (game.runTurn maxRewrites input board).cancelled with
  | true =>
    rw [runTurn_of_cancelled hgame hboard h, hsettle]
    exact ⟨fun _ ↦ isBalanced_nil, fun _ ↦ rfl⟩
  | false =>
    obtain ⟨last, hreplay, hlast⟩ := replay?_runTurn hgame hboard h
    have hmarked := fits_marked input hboard
    have hsame := Board.settle_eq_iff_tally hgame hmarked (hmarked.replay? hreplay)
      (Board.replay?_sameShape hreplay)
    rw [settle_marked, hsettle] at hsame
    rw [hlast, hsame]
    refine forall_congr' fun position ↦ forall_congr' fun object ↦ ?_
    have hbooks := Board.tally_of_replay? hreplay position object
    omega

end TilePuzzle
