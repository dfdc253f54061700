import TilePuzzle.Change.Revert
import TilePuzzle.Proofs.Fit
import TilePuzzle.Proofs.Transfer

/-!
# Replaying a record forwards

A record is a list of changes with their positions. Replaying makes the changes one after the other:
an object placed comes into the empty slot of its own layer without an intent, an object removed
leaves that slot empty, and a write of an intent finds its object there. A change that does not fit
stops the replay, so a record that replays describes its board exactly.

## Taking back

The main statement is that reverting inverts replaying up to intents: whatever a record turns into a
board, `Board.revert` turns that board back without a violation. Relabelling transfers does not
matter to either direction.

## The induction

It is done in a cell, with one change, where the three kinds of change are told apart once
(`replay?_cases`). The intents are in the way, since a record does not tell what they were before;
so boards are compared after settling, which taking back does not notice (`revert_settle`). A whole
record is gone through from its last change to its first.
-/

namespace TilePuzzle

/-! ## One change in a cell -/

namespace Cell

/-- Makes a change of an object of a given layer, if it fits the cell. -/
def replay? (cell : Cell) (layer : LayerId) (change : Change) : Option Cell :=
  if change.kind.isPlacement then
    if cell.occupant? layer = none ∧ layer.index < cell.slots.length then
      some (cell.put layer (.still change.object))
    else
      none
  else if (cell.occupant? layer).map Occupant.object = some change.object then
    if change.kind.isRemoval then some (cell.take layer)
    else some (cell.put layer ⟨change.object, change.kind.movement?⟩)
  else
    none

variable {cell cell' : Cell} {layer : LayerId} {change : Change}

/-- What replaying one change can have done. -/
theorem replay?_cases (h : cell.replay? layer change = some cell') :
    (change.kind.isPlacement = true ∧ cell.occupant? layer = none ∧
      layer.index < cell.slots.length ∧ cell' = cell.put layer (.still change.object)) ∨
    (change.kind.isPlacement = false ∧ ∃ occupant, cell.occupant? layer = some occupant ∧
      occupant.object = change.object ∧
      ((change.kind.isRemoval = true ∧ cell' = cell.take layer) ∨
        (change.kind.isRemoval = false ∧
          cell' = cell.put layer ⟨occupant.object, change.kind.movement?⟩))) := by
  rw [replay?] at h
  split at h
  · next hplace =>
    split at h
    · next hempty => exact Or.inl ⟨hplace, hempty.1, hempty.2, (Option.some.inj h).symm⟩
    · simp at h
  · next hplace =>
    split at h
    · next hthere =>
      obtain ⟨occupant, hocc, hobject⟩ := Option.map_eq_some_iff.mp hthere
      refine Or.inr ⟨eq_false_of_ne_true hplace, occupant, hocc, hobject, ?_⟩
      rw [hobject]
      split at h
      · next hremoval => exact Or.inl ⟨hremoval, (Option.some.inj h).symm⟩
      · next hremoval => exact Or.inr ⟨eq_false_of_ne_true hremoval, (Option.some.inj h).symm⟩
    · simp at h

theorem replay?_of_placement (hplace : change.kind.isPlacement = true)
    (hempty : cell.occupant? layer = none) (hlt : layer.index < cell.slots.length) :
    cell.replay? layer change = some (cell.put layer (.still change.object)) := by
  rw [replay?, if_pos hplace, if_pos ⟨hempty, hlt⟩]

theorem replay?_of_removal {occupant : Occupant} (hremoval : change.kind.isRemoval = true)
    (hocc : cell.occupant? layer = some occupant) (hobject : occupant.object = change.object) :
    cell.replay? layer change = some (cell.take layer) := by
  have hplace : ¬change.kind.isPlacement = true := by
    intro hplace
    cases hkind : change.kind <;> rw [hkind] at hplace hremoval <;> cases hplace <;> cases hremoval
  have hthere : (cell.occupant? layer).map Occupant.object = some change.object := by
    rw [hocc, ← hobject]
    rfl
  simp [replay?, hplace, hthere, hremoval]

theorem replay?_of_write {occupant : Occupant} (hplace : change.kind.isPlacement = false)
    (hremoval : change.kind.isRemoval = false) (hocc : cell.occupant? layer = some occupant)
    (hobject : occupant.object = change.object) :
    cell.replay? layer change =
      some (cell.put layer ⟨change.object, change.kind.movement?⟩) := by
  have hthere : (cell.occupant? layer).map Occupant.object = some change.object := by
    rw [hocc, ← hobject]
    rfl
  rw [replay?, if_neg (ne_true_of_eq_false hplace), if_pos hthere,
    if_neg (ne_true_of_eq_false hremoval)]

theorem replay?_relabel (cell : Cell) (layer : LayerId) (change : Change) (transferred : Bool) :
    cell.replay? layer { change with kind := change.kind.relabel transferred } =
      cell.replay? layer change := by
  simp only [replay?, ChangeKind.isPlacement_relabel, ChangeKind.isRemoval_relabel,
    ChangeKind.movement?_relabel]

theorem Fits.replay? {game : Game} (hcell : cell.Fits game)
    (hlayer : game.layer? change.object = some layer)
    (h : cell.replay? layer change = some cell') : cell'.Fits game := by
  rcases replay?_cases h with ⟨-, -, -, rfl⟩ | ⟨-, occupant, -, hobject, ⟨-, rfl⟩ | ⟨-, rfl⟩⟩
  · exact hcell.put hlayer
  · exact hcell.take layer
  · exact hcell.put (hobject ▸ hlayer)

/-! ## Taking it back -/

@[simp] theorem map_object_occupant?_settle (cell : Cell) (layer : LayerId) :
    (cell.settle.occupant? layer).map Occupant.object =
      (cell.occupant? layer).map Occupant.object := by
  rw [occupant?_settle, Option.map_map]
  rfl

/-- A change is taken back in the same way whether or not the intents are still there. -/
@[simp] theorem revert_settle (cell : Cell) (layer : LayerId) (position : Position)
    (change : Change) :
    cell.settle.revert layer position change =
      (cell.revert layer position change).map Cell.settle := by
  rw [revert, revert, map_object_occupant?_settle, occupant?_settle]
  by_cases hplace : change.kind.isPlacement = true
  · rw [if_pos hplace, if_pos hplace]
    by_cases hthere : (cell.occupant? layer).map Occupant.object = some change.object
    · rw [if_pos hthere, if_pos hthere, ← settle_take]
      rfl
    · rw [if_neg hthere, if_neg hthere]
      rfl
  · rw [if_neg hplace, if_neg hplace]
    by_cases hremoval : change.kind.isRemoval = true
    · rw [if_pos hremoval, if_pos hremoval]
      cases cell.occupant? layer with
      | none =>
        have hput := settle_put cell layer (.still change.object)
        exact congrArg Except.ok hput.symm
      | some occupant => rfl
    · rw [if_neg hremoval, if_neg hremoval]
      rfl

/-- **Taking back inverts replaying** in a cell, once the intents are forgotten. -/
theorem revert_of_replay? (h : cell.replay? layer change = some cell') (position : Position) :
    cell'.settle.revert layer position change = .ok cell.settle := by
  rcases replay?_cases h with ⟨hplace, hempty, hlt, rfl⟩ |
    ⟨hplace, occupant, hocc, hobject, ⟨hremoval, rfl⟩ | ⟨hremoval, rfl⟩⟩
  · have hlt' : layer.index < cell.settle.slots.length := by rwa [length_settle]
    have hempty' : cell.settle.occupant? layer = none := by rw [occupant?_settle, hempty]; rfl
    rw [settle_put, revert, if_pos hplace, put, occupant?_setSlot_self hlt']
    exact (if_pos rfl).trans (congrArg Except.ok ((take_put ..).trans (take_eq_self hempty')))
  · have hsettle : cell.settle.occupant? layer = some (.still change.object) := by
      rw [occupant?_settle, hocc, ← hobject]
      rfl
    rw [settle_take, revert, if_neg (ne_true_of_eq_false hplace), if_pos hremoval,
      occupant?_take_self]
    exact congrArg Except.ok ((put_take ..).trans (put_eq_self hsettle))
  · rw [settle_put_intent hocc, revert, if_neg (ne_true_of_eq_false hplace),
      if_neg (ne_true_of_eq_false hremoval)]

end Cell

/-! ## Changes on a board -/

namespace Board

/-- Makes a change at a position, if its object is known, the position is on the board and the
change fits the cell. -/
def replayChange? (game : Game) (board : Board) (change : Position × Change) : Option Board := do
  let layer ← game.layer? change.2.object
  let cell ← board.cell? change.1
  let cell ← cell.replay? layer change.2
  return board.setCell change.1 cell

/-- Makes changes one after the other, as long as they fit. -/
def replay? (game : Game) (changes : List (Position × Change)) (board : Board) : Option Board :=
  changes.foldlM (replayChange? game) board

variable {game : Game} {board board' : Board} {change : Position × Change}
  {changes : List (Position × Change)}

theorem replayChange?_eq_some_iff :
    board.replayChange? game change = some board' ↔
      ∃ layer cell cell', game.layer? change.2.object = some layer ∧
        board.cell? change.1 = some cell ∧ cell.replay? layer change.2 = some cell' ∧
        board' = board.setCell change.1 cell' := by
  simp only [replayChange?, Option.bind_eq_bind, Option.bind_eq_some_iff, Option.pure_def,
    Option.some.injEq, eq_comm (a := board')]
  constructor
  · rintro ⟨layer, hlayer, cell, hcell, cell', hcell', h⟩
    exact ⟨layer, cell, cell', hlayer, hcell, hcell', h⟩
  · rintro ⟨layer, cell, cell', hlayer, hcell, hcell', h⟩
    exact ⟨layer, hlayer, cell, hcell, cell', hcell', h⟩

theorem replay?_cons (game : Game) (change : Position × Change)
    (changes : List (Position × Change)) (board : Board) :
    board.replay? game (change :: changes) =
      (board.replayChange? game change).bind fun board ↦ board.replay? game changes :=
  List.foldlM_cons

theorem replay?_append (game : Game) (changes changes' : List (Position × Change)) (board : Board) :
    board.replay? game (changes ++ changes') =
      (board.replay? game changes).bind fun board ↦ board.replay? game changes' :=
  List.foldlM_append

theorem replay?_append_of {mid : Board} {changes' : List (Position × Change)}
    (h : board.replay? game changes = some mid) (h' : mid.replay? game changes' = some board') :
    board.replay? game (changes ++ changes') = some board' := by
  rw [replay?_append, h]
  exact h'

/-! ## What a replay keeps -/

/-- A property of boards that every fitting change keeps is kept by a whole replay. -/
theorem replay?_induction {P : Board → Prop}
    (step : ∀ board change board', board.replayChange? game change = some board' → P board →
      P board')
    (h : board.replay? game changes = some board') (hboard : P board) : P board' := by
  induction changes generalizing board with
  | nil => exact Option.some.inj h ▸ hboard
  | cons change changes ih =>
    rw [replay?_cons] at h
    obtain ⟨mid, hmid, h⟩ := Option.bind_eq_some_iff.mp h
    exact ih h (step board change mid hmid hboard)

theorem replay?_sameShape (h : board.replay? game changes = some board') :
    SameShape board board' := by
  refine replay?_induction (P := fun b ↦ SameShape board b) ?_ h (SameShape.refl board)
  intro b change b' hstep hb
  obtain ⟨_, _, cell', _, _, _, rfl⟩ := replayChange?_eq_some_iff.mp hstep
  exact hb.trans (sameShape_setCell b change.1 cell')

theorem Fits.replay? (hboard : board.Fits game) (h : board.replay? game changes = some board') :
    board'.Fits game := by
  refine replay?_induction ?_ h hboard
  intro b change b' hstep hb
  obtain ⟨layer, cell, cell', hlayer, hcell, hreplay, rfl⟩ := replayChange?_eq_some_iff.mp hstep
  exact hb.setCell change.1 ((hb.cell? hcell).replay? hlayer hreplay)

theorem replay?_mem (h : board.replay? game changes = some board') (hchange : change ∈ changes) :
    board.contains change.1 = true ∧ ∃ layer, game.layer? change.2.object = some layer := by
  induction changes generalizing board with
  | nil => exact absurd hchange List.not_mem_nil
  | cons first changes ih =>
    rw [replay?_cons] at h
    obtain ⟨mid, hmid, h⟩ := Option.bind_eq_some_iff.mp h
    obtain ⟨layer, cell, cell', hlayer, hcell, -, rfl⟩ := replayChange?_eq_some_iff.mp hmid
    rcases List.mem_cons.mp hchange with rfl | hchange
    · exact ⟨contains_of_cell? hcell, layer, hlayer⟩
    · rw [← (sameShape_setCell board first.1 cell').contains]
      exact ih h hchange

/-! ## Taking a replay back -/

@[simp] theorem revertChange_settle (game : Game) (board : Board) (position : Position)
    (change : Change) :
    board.settle.revertChange game position change =
      (board.revertChange game position change).map Board.settle := by
  rw [revertChange, revertChange, cell?_settle]
  cases game.template? change.object with
  | none => rfl
  | some template =>
    cases board.cell? position with
    | none => rfl
    | some cell =>
      simp only [Option.map_some, Cell.revert_settle]
      cases cell.revert template.layer position change with
      | error violation => rfl
      | ok cell' => exact congrArg Except.ok (settle_setCell board position cell').symm

theorem revertChange_of_replayChange? (h : board.replayChange? game change = some board') :
    board'.settle.revertChange game change.1 change.2 = .ok board.settle := by
  obtain ⟨layer, cell, cell', hlayer, hcell, hreplay, rfl⟩ := replayChange?_eq_some_iff.mp h
  obtain ⟨template, htemplate, rfl⟩ := Game.template?_of_layer? hlayer
  have hsettle : board.settle.cell? change.1 = some cell.settle := by rw [cell?_settle, hcell]; rfl
  rw [settle_setCell, revertChange, htemplate, cell?_setCell_self (contains_of_cell? hsettle)]
  simp only [Cell.revert_of_replay? hreplay]
  exact congrArg Except.ok ((setCell_setCell ..).trans (setCell_eq_self hsettle))

end Board

namespace Reverting

/-- The same state with the intents forgotten. -/
def settle (state : Reverting) : Reverting := { state with board := state.board.settle }

@[simp] theorem step_settle (game : Game) (state : Reverting) (change : Position × Change) :
    state.settle.step game change = (state.step game change).settle := by
  rw [step, step, settle, Board.revertChange_settle]
  cases state.board.revertChange game change.1 change.2 with
  | error violation => rfl
  | ok board => rfl

theorem foldl_step_settle (game : Game) (changes : List (Position × Change)) (state : Reverting) :
    changes.foldl (step game) state.settle = (changes.foldl (step game) state).settle := by
  induction changes generalizing state with
  | nil => rfl
  | cons change changes ih => rw [List.foldl_cons, List.foldl_cons, step_settle, ih]

/-- Going through the changes of a replay from the last to the first leads back to its start. -/
theorem foldl_step_of_replay? {game : Game} {board board' : Board}
    {changes : List (Position × Change)} (h : board.replay? game changes = some board')
    (violations : Array Violation) :
    changes.reverse.foldl (step game) ⟨board'.settle, violations⟩ = ⟨board.settle, violations⟩ := by
  -- the change that is made first is the last one to be taken back
  induction changes generalizing board with
  | nil => rw [Option.some.inj h]; rfl
  | cons change changes ih =>
    rw [Board.replay?_cons] at h
    obtain ⟨mid, hmid, h⟩ := Option.bind_eq_some_iff.mp h
    rw [List.reverse_cons, List.foldl_append, ih h, List.foldl_cons, List.foldl_nil, step]
    rw [Board.revertChange_of_replayChange? hmid]

end Reverting

namespace Board

@[simp] theorem revert_settle (game : Game) (subturns : List Subturn) (board : Board) :
    board.settle.revert game subturns = board.revert game subturns := by
  have hfold := Reverting.foldl_step_settle game (placedChanges subturns).reverse ⟨board, #[]⟩
  simp only [revert]
  rw [show (⟨board.settle, #[]⟩ : Reverting) = Reverting.settle ⟨board, #[]⟩ from rfl, hfold]
  exact Prod.ext (settle_settle _) rfl

/-- **Taking back inverts replaying**: what subturns turn into a board is what taking them back
leaves, without intents and without a violation. -/
theorem revert_of_replay? {game : Game} {board board' : Board} {subturns : List Subturn}
    (h : board.replay? game (placedChanges subturns) = some board') :
    board'.revert game subturns = (board.settle, []) := by
  rw [← revert_settle]
  simp only [revert, Reverting.foldl_step_of_replay? h, settle_settle]

end Board

/-! ## Transfers do not matter -/

namespace CellChange

/-- The changes of some cells with their positions. -/
def placed (cells : List CellChange) : List (Position × Change) :=
  cells.flatMap fun cell ↦ cell.changes.map fun change ↦ (cell.position, change)

end CellChange

theorem Board.replayChange?_relabel (game : Game) (board : Board) (position : Position)
    (change : Change) (transferred : Bool) :
    board.replayChange? game (position, { change with kind := change.kind.relabel transferred }) =
      board.replayChange? game (position, change) := by
  simp only [replayChange?, Cell.replay?_relabel]

theorem Board.replay?_labelTransfers (game : Game) (cells : List CellChange) (board : Board) :
    board.replay? game (CellChange.placed (labelTransfers cells)) =
      board.replay? game (CellChange.placed cells) := by
  rw [labelTransfers]
  generalize isTransferred (cells.flatMap CellChange.changes) = isTransferred
  simp only [CellChange.placed, List.flatMap_map, List.map_map]
  induction cells generalizing board with
  | nil => rfl
  | cons cell cells ih =>
    simp only [List.flatMap_cons, replay?_append, ih]
    congr 1
    rw [replay?, replay?, List.foldlM_map, List.foldlM_map]
    refine congrArg (fun f ↦ List.foldlM f board cell.changes) ?_
    funext b change
    exact replayChange?_relabel game b cell.position change _

end TilePuzzle
