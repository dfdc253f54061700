import TilePuzzle.Definition.Board
import TilePuzzle.Proofs.Definition.Names

/-!
# Drawn boards fit their game

A level starts from a blank board, and whatever is put into a cell is put on its own layer, without
an intent. So every board that is drawn fits the game and is still, whether or not it is filled up
with the background afterwards.
-/

namespace TilePuzzle

variable {game : Game}

theorem Template.Placed.layer? (hplaced : Placed game.layerCount game.objects) {id : ObjectId}
    {template : Template} (h : game.objects[id.index]? = some template) :
    template.id = id ∧ game.layer? id = some template.layer :=
  ⟨ObjectId.index_inj.mp (hplaced.index_id id.index template h), Game.layer?_of_template? h⟩

theorem Template.Placed.isLayered (hplaced : Placed game.layerCount game.objects) :
    game.IsLayered where
  layerCount_le := hplaced.layerCount_le
  layer_lt object layer h := by
    obtain ⟨template, htemplate, rfl⟩ := Game.template?_of_layer? h
    exact hplaced.layer_lt object.index template htemplate

namespace Board

variable {legend : Legend} {board board' : Board} {line : Nat}

/-! ## Drawing -/

theorem drawObject_eq_ok {symbol : String} {id : ObjectId} {cell cell' : Cell}
    (h : drawObject game.objects line symbol cell id = .ok cell') (hfits : cell.Fits game)
    (hstill : cell.IsStill) : cell'.Fits game ∧ cell'.IsStill := by
  rw [drawObject] at h
  split at h
  · cases h
    exact ⟨hfits, hstill⟩
  · next template htemplate =>
    split at h
    · cases h
      exact ⟨hfits.put (Game.layer?_of_template? htemplate), hstill.put_still template.layer id⟩
    · split at h
      · cases h
        exact ⟨hfits, hstill⟩
      · simp at h

/-- A board of the shape of another one that fits the game and is still. -/
structure IsDrawnOn (game : Game) (start board : Board) : Prop where
  sameShape : SameShape start board
  fits : board.Fits game
  isStill : board.IsStill

variable {start : Board}

theorem IsDrawnOn.drawSymbol (h : IsDrawnOn game start board) {y : Nat} {symbol : Char × Nat}
    (hdraw : drawSymbol legend game.objects line y board symbol = .ok board') :
    IsDrawnOn game start board' := by
  obtain ⟨ids, -, hdraw⟩ := bind_eq_ok_iff.mp hdraw
  dsimp only at hdraw
  split at hdraw
  · cases hdraw
    exact h
  · next cell hcell =>
    obtain ⟨drawn, hdrawn, hdraw⟩ := bind_eq_ok_iff.mp hdraw
    obtain rfl := pure_eq_ok_iff.mp hdraw
    have hmem := mem_cells_of_cell? hcell
    obtain ⟨hfits, hstill⟩ := foldlM_ok_induction (P := fun cell ↦ cell.Fits game ∧ cell.IsStill)
      (fun _ _ _ _ hobject hbefore ↦ drawObject_eq_ok hobject hbefore.1 hbefore.2) hdrawn
      ⟨h.fits cell hmem, h.isStill cell hmem⟩
    exact ⟨h.sameShape.trans (sameShape_setCell board _ drawn), h.fits.setCell _ hfits,
      h.isStill.setCell _ hstill⟩

theorem IsDrawnOn.drawRow (h : IsDrawnOn game start board) {row : String × Nat}
    (hdraw : drawRow legend game.objects line board row = .ok board') :
    IsDrawnOn game start board' :=
  foldlM_ok_induction (fun _ _ _ _ hsymbol hbefore ↦ hbefore.drawSymbol hsymbol) hdraw h

theorem isDrawnOn_blank (game : Game) (index width height : Nat) :
    IsDrawnOn game (blank index width height game.layerCount)
      (blank index width height game.layerCount) where
  sameShape := .refl _
  fits := fits_blank game index width height
  isStill := isStill_blank index width height game.layerCount

/-! ## Filling up -/

theorem IsDrawnOn.fill (h : IsDrawnOn game start board) {template : Template}
    (hlayer : game.layer? template.id = some template.layer) :
    IsDrawnOn game start (board.fill template) where
  sameShape := h.sameShape.trans (sameShape_mapCells _ board)
  fits := h.fits.mapCells fun cell hcell ↦ by
    split
    · exact hcell.put hlayer
    · exact hcell
  isStill := h.isStill.mapCells fun cell hcell ↦ by
    split
    · exact hcell.put_still template.layer template.id
    · exact hcell

/-! ## Levels -/

theorem background?_eq_some {objects : Array Template} {template : Template}
    (h : background? legend objects = some template) :
    ∃ id : ObjectId, objects[id.index]? = some template := by
  rw [background?] at h
  split at h
  · exact ⟨_, h⟩
  · simp at h

/-- **Drawn boards fit their game**: the board of a drawing belongs to the level of its place, fits
the game and is still. -/
theorem ofDrawing_eq_ok (hplaced : Template.Placed game.layerCount game.objects)
    {drawing : Drawing} {place : Nat}
    (h : ofDrawing legend game.objects game.layerCount (drawing, place) = .ok board) :
    board.index = place ∧ board.Fits game ∧ board.IsStill := by
  rw [ofDrawing] at h
  split at h
  · simp at h
  · obtain ⟨drawn, hdrawn, h⟩ := bind_eq_ok_iff.mp h
    have hrows := foldlM_ok_induction (fun _ _ _ _ hrow hbefore ↦ IsDrawnOn.drawRow hbefore hrow)
      hdrawn (isDrawnOn_blank game _ _ _)
    split at h
    · obtain rfl := pure_eq_ok_iff.mp h
      exact ⟨hrows.sameShape.index, hrows.fits, hrows.isStill⟩
    · next template hbackground =>
      obtain rfl := pure_eq_ok_iff.mp h
      obtain ⟨id, hid⟩ := background?_eq_some hbackground
      obtain ⟨rfl, hlayer⟩ := hplaced.layer? hid
      have hfilled := hrows.fill hlayer
      exact ⟨hfilled.sameShape.index, hfilled.fits, hfilled.isStill⟩

end Board

end TilePuzzle
