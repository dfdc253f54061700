import TilePuzzle.Proofs.Outcome
import TilePuzzle.Proofs.Replay

/-!
# What taking back keeps

Taking back is safe on any board and for any record, whether or not the record is of a turn on that
board: a change that does not fit is skipped, and the inverse of one that fits only empties a slot
or puts a known object on its own layer. So the board keeps its shape and goes on to fit the game,
and it is still afterwards.
-/

namespace TilePuzzle

variable {game : Game}

theorem Cell.Fits.revert {cell cell' : Cell} (h : cell.Fits game) {layer : LayerId}
    {position : Position} {change : Change} (hlayer : game.layer? change.object = some layer)
    (hrevert : cell.revert layer position change = .ok cell') : cell'.Fits game := by
  rw [Cell.revert] at hrevert
  split at hrevert
  · split at hrevert
    · cases hrevert
      exact h.take layer
    · simp at hrevert
  · split at hrevert
    · split at hrevert
      · simp at hrevert
      · cases hrevert
        exact h.put hlayer
    · cases hrevert
      exact h

namespace Board

variable {board board' : Board} {position : Position} {change : Change}

theorem revertChange_eq_ok (h : board.revertChange game position change = .ok board') :
    ∃ layer cell cell', game.layer? change.object = some layer ∧
      board.cell? position = some cell ∧ cell.revert layer position change = .ok cell' ∧
      board' = board.setCell position cell' := by
  rw [revertChange] at h
  split at h
  · simp at h
  · simp at h
  · next template cell htemplate hcell =>
    obtain ⟨cell', hrevert, rfl⟩ := map_eq_ok_iff.mp h
    exact ⟨template.layer, cell, cell', Game.layer?_of_template? htemplate, hcell, hrevert, rfl⟩

theorem Fits.revertChange (h : board.Fits game)
    (hrevert : board.revertChange game position change = .ok board') : board'.Fits game := by
  obtain ⟨layer, cell, cell', hlayer, hcell, hcell', rfl⟩ := revertChange_eq_ok hrevert
  exact h.setCell position ((h.cell? hcell).revert hlayer hcell')

theorem sameShape_revertChange (h : board.revertChange game position change = .ok board') :
    board.SameShape board' := by
  obtain ⟨-, -, cell', -, -, -, rfl⟩ := revertChange_eq_ok h
  exact sameShape_setCell board position cell'

/-! ## Whole records -/

/-- What taking back one change keeps, taking back a record keeps. -/
private theorem revert_fold_induction {P : Board → Prop} (subturns : List Subturn)
    (step : ∀ before position change after,
      before.revertChange game position change = .ok after → P before → P after) (h : P board) :
    P ((placedChanges subturns).reverse.foldl (Reverting.step game) ⟨board, #[]⟩).board := by
  refine List.foldlRecOn (motive := fun state : Reverting ↦ P state.board) _ _ h ?_
  intro state hstate change _
  rw [Reverting.step]
  split
  · next after hafter => exact step state.board change.1 change.2 after hafter hstate
  · exact hstate

theorem Fits.revert (h : board.Fits game) (subturns : List Subturn) :
    (board.revert game subturns).1.Fits game :=
  (revert_fold_induction (P := Board.Fits game) subturns
    (fun _ _ _ _ hstep hbefore ↦ hbefore.revertChange hstep) h).settle

theorem sameShape_revert (game : Game) (subturns : List Subturn) (board : Board) :
    board.SameShape (board.revert game subturns).1 :=
  (revert_fold_induction (P := board.SameShape) subturns
    (fun _ _ _ _ hstep hbefore ↦ hbefore.trans (sameShape_revertChange hstep)) (.refl board)).trans
      (sameShape_settle _)

theorem isStill_revert (game : Game) (subturns : List Subturn) (board : Board) :
    (board.revert game subturns).1.IsStill := isStill_settle _

end Board

end TilePuzzle
