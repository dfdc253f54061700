import TilePuzzle.Proofs.Balance
import TilePuzzle.Proofs.Definition.Game
import TilePuzzle.Proofs.Document.LevelRows
import TilePuzzle.Proofs.Loading.Result

/-!
# Levels that cannot be built

A level is built unless its rows have different widths or something is wrong with a symbol: it is
not defined, it is a property, or it puts two objects on one layer.

## Drawing

A board is drawn row by row, and each row from the left. From the place on that has been reached all
cells are blank (`IsBlankFrom`), so every symbol is drawn into an empty cell, and whether it is at
fault does not depend on where it stands. Hence a level fails with the first row at fault and in
this row with the first symbol at fault.

## The line of an error

The error names a line: the line of the first row and as many lines further down as there are rows
above the one at fault. This is the line on which that row is written if there is no separator
between the two, and otherwise falls short of it by the number of those separators.
-/

namespace TilePuzzle

/-! ## What is wrong with a level -/

/-- Two different objects of a list stand on a certain layer. -/
def Game.IsShared (game : Game) (ids : List ObjectId) (layer : LayerId) : Prop :=
  ∃ a ∈ ids, ∃ b ∈ ids, a ≠ b ∧ game.layer? a = some layer ∧ game.layer? b = some layer

/-- The objects that a symbol puts into a cell, if it is known which. -/
def Legend.drawn? (legend : Legend) (symbol : String) : Option (List ObjectId) :=
  match legend.lookup? symbol with
  | some (.object id) => some [id]
  | some (.aggregate members) => some members
  | some (.property _) => none
  | none => none

/-- What is wrong with a symbol in a level; the error still lacks the line. -/
inductive Game.IsSymbolFault (game : Game) (symbol : String) : (Nat → DefinitionError) → Prop
  | undefined (lookup : game.legend.lookup? symbol = none) :
      IsSymbolFault game symbol (.undefinedName · symbol)
  | ambiguous {members : ObjectSet}
      (lookup : game.legend.lookup? symbol = some (.property members)) :
      IsSymbolFault game symbol (.ambiguousLevelSymbol · symbol)
  | crowded {members : List ObjectId} {layer : LayerId}
      (lookup : game.legend.lookup? symbol = some (.aggregate members))
      (shared : game.IsShared members layer) :
      IsSymbolFault game symbol (.levelLayerConflict · symbol layer.index)

/-- Nothing is wrong with some characters as symbols. -/
def Game.AllowsAll (game : Game) (cs : List Char) : Prop :=
  ∀ c ∈ cs, ∀ fault, ¬game.IsSymbolFault (.ofList [c]) fault

namespace Drawing

/-- The width of the first row. -/
def width (drawing : Drawing) : Nat := (drawing.rows.head?.map String.length).getD 0

/-- The row in a given place is the one at fault: the first of another width, or if there is none,
the first with a symbol at fault, of which the first counts. -/
inductive FailsOn (game : Game) (drawing : Drawing) : Nat → (Nat → DefinitionError) → Prop
  | ragged {above below : List String} {row : String}
      (rows_eq : drawing.rows = above ++ row :: below)
      (above_even : ∀ other ∈ above, other.length = drawing.width)
      (other_width : row.length ≠ drawing.width) :
      FailsOn game drawing above.length .nonRectangularLevel
  | symbol {above below : List String} {row : String} {left right : List Char} {c : Char}
      {fault : Nat → DefinitionError} (even : ∀ other ∈ drawing.rows, other.length = drawing.width)
      (rows_eq : drawing.rows = above ++ row :: below)
      (above_allowed : ∀ other ∈ above, game.AllowsAll other.toList)
      (row_eq : row.toList = left ++ c :: right) (left_allowed : game.AllowsAll left)
      (here : game.IsSymbolFault (.ofList [c]) fault) :
      FailsOn game drawing above.length fault

theorem FailsOn.lt_length {game : Game} {drawing : Drawing} {place : Nat}
    {fault : Nat → DefinitionError} (h : drawing.FailsOn game place fault) :
    place < drawing.rows.length := by
  obtain ⟨hrows, -, -⟩ | ⟨-, hrows, -, -, -, -⟩ := h
  all_goals
    rw [hrows, List.length_append, List.length_cons]
    omega

/-- No row of the drawing is at fault. -/
structure IsSound (game : Game) (drawing : Drawing) : Prop where
  even : ∀ row ∈ drawing.rows, row.length = drawing.width
  allowed : ∀ row ∈ drawing.rows, game.AllowsAll row.toList

theorem FailsOn.not_isSound {game : Game} {drawing : Drawing} {place : Nat}
    {fault : Nat → DefinitionError} (h : drawing.FailsOn game place fault) :
    ¬drawing.IsSound game := by
  intro hsound
  cases h with
  | ragged hrows heven hother =>
    exact hother (hsound.even _ (hrows ▸ List.mem_append_right _ List.mem_cons_self))
  | symbol heven hrows habove hrow hleft hfault =>
    have hallowed := hsound.allowed _ (hrows ▸ List.mem_append_right _ List.mem_cons_self)
    exact hallowed _ (hrow ▸ List.mem_append_right _ List.mem_cons_self) _ hfault

end Drawing

/-! ## Drawing a cell -/

variable {game : Game}

/-- The listed objects stand in a cell, and nothing else. -/
structure Cell.Shows (game : Game) (ids : List ObjectId) (cell : Cell) : Prop where
  fits : cell.Fits game
  object?_eq_some_iff : ∀ layer object, cell.object? layer = some object ↔
    object ∈ ids ∧ game.layer? object = some layer

namespace Cell

variable {cell : Cell} {ids : List ObjectId}

theorem shows_blank (game : Game) : (blank game.layerCount).Shows game [] where
  fits := fits_blank game
  object?_eq_some_iff layer object := by
    have hnone : (blank game.layerCount).object? layer = none := by
      rw [object?, occupant?, blank, List.getElem?_replicate]
      split <;> rfl
    rw [hnone]
    exact iff_of_false (Option.some_ne_none object).symm fun h ↦ List.not_mem_nil h.1

theorem Shows.not_isShared (h : cell.Shows game ids) (layer : LayerId) :
    ¬game.IsShared ids layer := by
  rintro ⟨a, ha, b, hb, hne, hlayer, hlayer'⟩
  have hfirst := (h.object?_eq_some_iff layer a).mpr ⟨ha, hlayer⟩
  have hsecond := (h.object?_eq_some_iff layer b).mpr ⟨hb, hlayer'⟩
  exact hne (Option.some.inj (hfirst.symm.trans hsecond))

theorem Shows.concat (h : cell.Shows game ids) {id : ObjectId}
    (hid : ∀ layer, game.layer? id = some layer → id ∈ ids) : cell.Shows game (ids ++ [id]) where
  fits := h.fits
  object?_eq_some_iff layer object := by
    rw [h.object?_eq_some_iff, List.mem_append, List.mem_singleton]
    constructor
    · rintro ⟨hmem, hlayer⟩
      exact ⟨.inl hmem, hlayer⟩
    · rintro ⟨hmem | rfl, hlayer⟩
      · exact ⟨hmem, hlayer⟩
      · exact ⟨hid layer hlayer, hlayer⟩

theorem Shows.put (h : cell.Shows game ids) (hgame : game.IsLayered) {id : ObjectId}
    {layer : LayerId} (hid : game.layer? id = some layer) (hempty : cell.object? layer = none) :
    (cell.put layer (.still id)).Shows game (ids ++ [id]) where
  fits := h.fits.put hid
  object?_eq_some_iff other object := by
    rw [List.mem_append, List.mem_singleton]
    by_cases hother : other = layer
    · subst hother
      rw [object?, Cell.put, occupant?_setSlot_self (h.fits.layer_lt hgame hid)]
      constructor
      · rintro hobject
        obtain rfl := Option.some.inj hobject
        exact ⟨.inr rfl, hid⟩
      · rintro ⟨hmem | rfl, hlayer⟩
        · rw [(h.object?_eq_some_iff other object).mpr ⟨hmem, hlayer⟩] at hempty
          cases hempty
        · rfl
    · rw [object?, Cell.put, occupant?_setSlot_ne hother, ← object?, h.object?_eq_some_iff]
      constructor
      · rintro ⟨hmem, hlayer⟩
        exact ⟨.inl hmem, hlayer⟩
      · rintro ⟨hmem | rfl, hlayer⟩
        · exact ⟨hmem, hlayer⟩
        · exact absurd (Option.some.inj (hlayer.symm.trans hid)) hother

end Cell

theorem Game.IsShared.mono {ids ids' : List ObjectId} {layer : LayerId}
    (h : game.IsShared ids layer) (hids : ids ⊆ ids') : game.IsShared ids' layer := by
  obtain ⟨a, ha, b, hb, hrest⟩ := h
  exact ⟨a, hids ha, b, hids hb, hrest⟩

theorem Game.not_isSymbolFault_of_drawn? {symbol : String} {ids : List ObjectId}
    (h : game.legend.drawn? symbol = some ids) (hshared : ∀ layer, ¬game.IsShared ids layer)
    (fault : Nat → DefinitionError) : ¬game.IsSymbolFault symbol fault := by
  rw [Legend.drawn?] at h
  rintro (hlookup | hlookup | ⟨hlookup, hlayer⟩)
  all_goals
    rw [hlookup] at h
    cases h
  exact hshared _ hlayer

theorem Game.not_isShared_singleton (game : Game) (id : ObjectId) (layer : LayerId) :
    ¬game.IsShared [id] layer := by
  rintro ⟨a, ha, b, hb, hne, -⟩
  exact hne ((List.mem_singleton.mp ha).trans (List.mem_singleton.mp hb).symm)

theorem Game.isSymbolFault_of_isShared {symbol : String} {ids : List ObjectId} {layer : LayerId}
    (h : game.legend.drawn? symbol = some ids) (hshared : game.IsShared ids layer) :
    game.IsSymbolFault symbol (.levelLayerConflict · symbol layer.index) := by
  rw [Legend.drawn?] at h
  split at h
  · obtain rfl := Option.some.inj h
    exact absurd hshared (game.not_isShared_singleton _ layer)
  · next hlookup =>
    obtain rfl := Option.some.inj h
    exact .crowded hlookup hshared
  · cases h
  · cases h

theorem Game.not_isSymbolFault_of_object {symbol : String} {id : ObjectId}
    (h : game.legend.lookup? symbol = some (.object id)) (fault : Nat → DefinitionError) :
    ¬game.IsSymbolFault symbol fault := by
  have hdrawn : game.legend.drawn? symbol = some [id] := by
    rw [Legend.drawn?, h]
  exact not_isSymbolFault_of_drawn? hdrawn (game.not_isShared_singleton id) fault

namespace Board

variable {line : Nat}

/-- Putting a further object into a cell succeeds unless another one stands on its layer. -/
theorem drawObject_cases (line : Nat) (symbol : String) (hgame : game.IsLayered) {cell : Cell}
    {ids : List ObjectId} (h : cell.Shows game ids) (id : ObjectId) :
    (∃ cell', drawObject game.objects line symbol cell id = .ok cell' ∧
      cell'.Shows game (ids ++ [id])) ∨
    ∃ error, drawObject game.objects line symbol cell id = .error error ∧
      ∃ layer, error = .levelLayerConflict line symbol layer.index ∧
        game.IsShared (ids ++ [id]) layer := by
  have hlayer : game.layer? id = game.objects[id.index]?.map Template.layer := rfl
  rw [drawObject]
  rcases htemplate : game.objects[id.index]? with _ | template
  · refine .inl ⟨cell, rfl, h.concat fun layer hid ↦ ?_⟩
    rw [hlayer, htemplate] at hid
    cases hid
  · rw [htemplate, Option.map_some] at hlayer
    dsimp only
    rcases hocc : cell.occupant? template.layer with _ | occupant
    · refine .inl ⟨_, rfl, h.put hgame hlayer ?_⟩
      rw [Cell.object?, hocc, Option.map_none]
    · have hobject : cell.object? template.layer = some occupant.object := by
        rw [Cell.object?, hocc, Option.map_some]
      obtain ⟨hmem, hother⟩ := (h.object?_eq_some_iff _ _).mp hobject
      dsimp only
      by_cases hsame : occupant.object = id
      · rw [if_pos hsame]
        exact .inl ⟨cell, rfl, h.concat fun _ _ ↦ hsame ▸ hmem⟩
      · rw [if_neg hsame]
        exact .inr ⟨_, rfl, template.layer, rfl, occupant.object, List.mem_append_left _ hmem, id,
          List.mem_append_right _ List.mem_cons_self, hsame, hother, hlayer⟩

theorem drawObjects_cases (line : Nat) (symbol : String) (hgame : game.IsLayered)
    (ids : List ObjectId) :
    (∃ cell, ids.foldlM (drawObject game.objects line symbol) (.blank game.layerCount) = .ok cell ∧
      cell.Shows game ids) ∨
    ∃ layer, ids.foldlM (drawObject game.objects line symbol) (.blank game.layerCount) =
      .error (.levelLayerConflict line symbol layer.index) ∧ game.IsShared ids layer := by
  rcases foldlM_cases (P := Cell.Shows game) ids (fun front id back cell _ hcell ↦
    drawObject_cases line symbol hgame hcell id) (Cell.shows_blank game) with
    ⟨cell, hdraw, hcell⟩ | ⟨front, id, back, error, herror, rfl, layer, rfl, hshared⟩
  · exact .inl ⟨cell, hdraw, hcell⟩
  · refine .inr ⟨layer, herror, hshared.mono fun a ha ↦ ?_⟩
    rw [List.append_cons]
    exact List.mem_append_left back ha

theorem drawnObjects_of_drawn? {legend : Legend} {symbol : String} {ids : List ObjectId}
    (h : legend.drawn? symbol = some ids) : drawnObjects legend line symbol = .ok ids := by
  rw [Legend.drawn?] at h
  rw [drawnObjects, Legend.resolve]
  split at h
  · next hlookup =>
    obtain rfl := Option.some.inj h
    rw [hlookup]
    rfl
  · next hlookup =>
    obtain rfl := Option.some.inj h
    rw [hlookup]
    rfl
  · cases h
  · cases h

theorem drawnObjects_of_drawn?_eq_none {symbol : String}
    (h : game.legend.drawn? symbol = none) (line : Nat) :
    ∃ fault, drawnObjects game.legend line symbol = .error (fault line) ∧
      game.IsSymbolFault symbol fault := by
  rw [Legend.drawn?] at h
  rw [drawnObjects, Legend.resolve]
  split at h
  · cases h
  · cases h
  · next hlookup =>
    rw [hlookup]
    exact ⟨_, rfl, .ambiguous hlookup⟩
  · next hlookup =>
    rw [hlookup]
    exact ⟨_, rfl, .undefined hlookup⟩

theorem drawSymbol_of_error {board : Board} {x y : Nat} {c : Char} {error : DefinitionError}
    (h : drawnObjects game.legend line (.ofList [c]) = .error error) :
    drawSymbol game.legend game.objects line y board (c, x) = .error error := by
  rw [drawSymbol, h]
  rfl

theorem drawSymbol_of_ok {board : Board} {x y : Nat} {c : Char} {ids : List ObjectId}
    (h : drawnObjects game.legend line (.ofList [c]) = .ok ids)
    (hcell : board.cell? ⟨x, y⟩ = some (.blank game.layerCount)) :
    drawSymbol game.legend game.objects line y board (c, x) =
      (ids.foldlM (drawObject game.objects line (.ofList [c])) (.blank game.layerCount)).map
        (board.setCell ⟨x, y⟩) := by
  rw [drawSymbol, h]
  dsimp only [bind, Except.bind]
  rw [hcell]
  rfl

/-- **A symbol is drawn into an empty cell unless something is wrong with it.** -/
theorem drawSymbol_cases (hgame : game.IsLayered) {board : Board} {x y : Nat}
    (hcell : board.cell? ⟨x, y⟩ = some (.blank game.layerCount)) (c : Char) :
    (∃ ids cell, drawSymbol game.legend game.objects line y board (c, x) =
      .ok (board.setCell ⟨x, y⟩ cell) ∧ game.legend.drawn? (.ofList [c]) = some ids ∧
        cell.Shows game ids) ∨
    ∃ fault, drawSymbol game.legend game.objects line y board (c, x) = .error (fault line) ∧
      game.IsSymbolFault (.ofList [c]) fault := by
  rcases hdrawn : game.legend.drawn? (.ofList [c]) with _ | ids
  · obtain ⟨fault, herror, hfault⟩ := drawnObjects_of_drawn?_eq_none hdrawn line
    exact .inr ⟨fault, drawSymbol_of_error herror, hfault⟩
  · rw [drawSymbol_of_ok (drawnObjects_of_drawn? hdrawn) hcell]
    rcases drawObjects_cases line (.ofList [c]) hgame ids with
      ⟨cell, hdraw, hshows⟩ | ⟨layer, hdraw, hshared⟩
    · exact .inl ⟨ids, cell, by rw [hdraw]; rfl, rfl, hshows⟩
    · exact .inr ⟨_, by rw [hdraw]; rfl, Game.isSymbolFault_of_isShared hdrawn hshared⟩

/-! ## Drawing a board -/

/-- A board of a certain size on which nothing has been drawn from a column of a row on. -/
structure IsBlankFrom (game : Game) (width height : Nat) (board : Board) (y x : Nat) : Prop where
  width_eq : board.width = width
  height_eq : board.height = height
  cell?_eq : ∀ i j : Nat, i < width → j < height → y < j ∨ y = j ∧ x ≤ i →
    board.cell? ⟨i, j⟩ = some (.blank game.layerCount)

variable {width height : Nat} {board : Board} {x y : Nat}

theorem isBlankFrom_blank (game : Game) (place width height : Nat) :
    (blank place width height game.layerCount).IsBlankFrom game width height 0 0 where
  width_eq := rfl
  height_eq := rfl
  cell?_eq i j hi hj _ := by
    have hcontains : (blank place width height game.layerCount).contains ⟨i, j⟩ = true :=
      contains_iff.mpr ⟨Int.natCast_nonneg i, Int.natCast_nonneg j, Int.ofNat_lt.mpr hi,
        Int.ofNat_lt.mpr hj⟩
    have hplace := place_lt_size hcontains
    rw [size_cells] at hplace
    rw [cell?_of_contains hcontains, blank, Array.getElem?_replicate]
    exact if_pos hplace

theorem IsBlankFrom.setCell (h : board.IsBlankFrom game width height y x) (cell : Cell) :
    (board.setCell ⟨x, y⟩ cell).IsBlankFrom game width height y (x + 1) where
  width_eq := (sameShape_setCell board _ cell).width.trans h.width_eq
  height_eq := (sameShape_setCell board _ cell).height.trans h.height_eq
  cell?_eq i j hi hj hbehind := by
    have hne : (⟨i, j⟩ : Position) ≠ ⟨x, y⟩ := by
      intro heq
      obtain ⟨hx, hy⟩ := Position.mk.inj heq
      omega
    rw [cell?_setCell_ne hne]
    exact h.cell?_eq i j hi hj (by omega)

theorem IsBlankFrom.nextRow (h : board.IsBlankFrom game width height y width) :
    board.IsBlankFrom game width height (y + 1) 0 where
  width_eq := h.width_eq
  height_eq := h.height_eq
  cell?_eq i j hi hj hbehind := h.cell?_eq i j hi hj (by omega)

/-- The cell in a given place shows the objects of a character. -/
def ShowsAt (game : Game) (board : Board) (x y : Nat) (c : Char) : Prop :=
  ∃ ids cell, game.legend.drawn? (.ofList [c]) = some ids ∧ board.cell? ⟨x, y⟩ = some cell ∧
    cell.Shows game ids

/-- The cells of a row, from the left, show the objects of characters. -/
def ShowsRow (game : Game) (board : Board) (cs : List Char) (y : Nat) : Prop :=
  ∀ (x : Nat) (c : Char), cs[x]? = some c → board.ShowsAt game x y c

theorem ShowsRow.allowsAll {cs : List Char} (h : board.ShowsRow game cs y) : game.AllowsAll cs := by
  intro c hc
  obtain ⟨x, hx⟩ := List.mem_iff_getElem?.mp hc
  obtain ⟨ids, cell, hdrawn, -, hcell⟩ := h x c hx
  exact Game.not_isSymbolFault_of_drawn? hdrawn hcell.not_isShared

theorem ShowsRow.congr {board' : Board} {cs : List Char} (h : board.ShowsRow game cs y)
    (hcells : ∀ x : Nat, board'.cell? ⟨x, y⟩ = board.cell? ⟨x, y⟩) : board'.ShowsRow game cs y := by
  intro x c hc
  rw [ShowsAt, hcells]
  exact h x c hc

theorem ShowsRow.concat {cs : List Char} {c : Char} {ids : List ObjectId} {cell : Cell}
    (h : board.ShowsRow game cs y) (hcontains : board.contains ⟨cs.length, y⟩ = true)
    (hdrawn : game.legend.drawn? (.ofList [c]) = some ids) (hcell : cell.Shows game ids) :
    (board.setCell ⟨cs.length, y⟩ cell).ShowsRow game (cs ++ [c]) y := by
  intro x d hd
  rcases getElem?_concat_eq_some_iff.mp hd with hd | ⟨rfl, rfl⟩
  · have hne : (⟨x, y⟩ : Position) ≠ ⟨cs.length, y⟩ := by
      intro heq
      have hlt := (List.getElem?_eq_some_iff.mp hd).1
      exact absurd (Position.mk.inj heq).1 (by omega)
    rw [ShowsAt, cell?_setCell_ne hne]
    exact h x d hd
  · exact ⟨ids, cell, hdrawn, cell?_setCell_self hcontains cell, hcell⟩

/-- **A row is drawn unless something is wrong with a symbol**, and then the first such symbol is
reported, on the line that lies below the first one by the place of the row. -/
theorem drawRow_cases (hgame : game.IsLayered) {row : String} (hrow : row.length = width)
    (hy : y < height) (h : board.IsBlankFrom game width height y 0) :
    (∃ board', drawRow game.legend game.objects line board (row, y) = .ok board' ∧
      board'.IsBlankFrom game width height (y + 1) 0 ∧ board'.ShowsRow game row.toList y ∧
        ∀ i j : Nat, j < y → board'.cell? ⟨i, j⟩ = board.cell? ⟨i, j⟩) ∨
    ∃ error, drawRow game.legend game.objects line board (row, y) = .error error ∧
      ∃ left c right fault, error = fault (line + y) ∧ row.toList = left ++ c :: right ∧
        game.AllowsAll left ∧ game.IsSymbolFault (.ofList [c]) fault := by
  rw [drawRow]
  -- before each symbol: the cells from its column on are empty, and those before it are drawn
  have hcases := foldlM_zipIdx_cases (f := drawSymbol game.legend game.objects (line + y) y)
    (P := fun front board' ↦ board'.IsBlankFrom game width height y front.length ∧
      board'.ShowsRow game front y ∧
      ∀ i j : Nat, j < y → board'.cell? ⟨i, j⟩ = board.cell? ⟨i, j⟩)
    (Q := fun front c error ↦ ∃ fault, error = fault (line + y) ∧ game.AllowsAll front ∧
      game.IsSymbolFault (.ofList [c]) fault)
    row.toList ?step ⟨h, nofun, fun _ _ _ ↦ rfl⟩
  case step =>
    rintro front c back before hcut ⟨hboard, hfront, habove⟩
    have hlength := congrArg List.length hcut
    rw [String.length_toList, hrow, List.length_append, List.length_cons] at hlength
    have hcell := hboard.cell?_eq front.length y (by omega) hy (.inr ⟨rfl, Nat.le_refl _⟩)
    rcases drawSymbol_cases hgame hcell c with
      ⟨ids, cell, hdraw, hdrawn, hshows⟩ | ⟨fault, herror, hfault⟩
    · refine .inl ⟨_, hdraw, ?_, hfront.concat (contains_of_cell? hcell) hdrawn hshows,
        fun i j hj ↦ ?_⟩
      · rw [List.length_append, List.length_singleton]
        exact hboard.setCell cell
      · rw [cell?_setCell_ne, habove i j hj]
        rintro heq
        exact absurd (Position.mk.inj heq).2 (by omega)
    · exact .inr ⟨_, herror, fault, rfl, hfront.allowsAll, hfault⟩
  rcases hcases with ⟨board', hdraw, hboard', hshows, habove⟩ |
    ⟨front, c, back, _, herror, hcut, fault, rfl, hrest⟩
  · rw [String.length_toList, hrow] at hboard'
    exact .inl ⟨board', hdraw, hboard'.nextRow, hshows, habove⟩
  · exact .inr ⟨_, herror, front, c, back, fault, rfl, hcut, hrest⟩

/-- The rows of a board, from the top, show the objects of the characters of some rows. -/
structure ShowsRows (game : Game) (board : Board) (width : Nat) (rows : List String) : Prop where
  width_eq : board.width = width
  height_eq : board.height = rows.length
  row : ∀ (y : Nat) (row : String), rows[y]? = some row → board.ShowsRow game row.toList y

theorem drawRows_cases (line : Nat) (hgame : game.IsLayered) (place : Nat) {rows : List String}
    (hrows : ∀ row ∈ rows, row.length = width) :
    (∃ board, rows.zipIdx.foldlM (drawRow game.legend game.objects line)
      (blank place width rows.length game.layerCount) = .ok board ∧
        board.ShowsRows game width rows) ∨
    ∃ error, rows.zipIdx.foldlM (drawRow game.legend game.objects line)
      (blank place width rows.length game.layerCount) = .error error ∧
        ∃ above row below left c right fault, error = fault (line + List.length above) ∧
          rows = above ++ row :: below ∧ (∀ other ∈ above, game.AllowsAll other.toList) ∧
          row.toList = left ++ c :: right ∧ game.AllowsAll left ∧
          game.IsSymbolFault (.ofList [c]) fault := by
  -- before each row: its cells and those below are empty, and the rows above are drawn
  have hcases := foldlM_zipIdx_cases (f := drawRow game.legend game.objects line)
    (P := fun front (board : Board) ↦
      board.IsBlankFrom game width rows.length front.length 0 ∧
        ∀ (y : Nat) (row : String), front[y]? = some row → board.ShowsRow game row.toList y)
    (Q := fun front row error ↦ (∀ row ∈ front, game.AllowsAll row.toList) ∧
      ∃ left c right fault, error = fault (line + front.length) ∧
        row.toList = left ++ c :: right ∧ game.AllowsAll left ∧
        game.IsSymbolFault (.ofList [c]) fault)
    rows ?step ⟨isBlankFrom_blank game place width rows.length, nofun⟩
  case step =>
    rintro front row back board hsplit ⟨hboard, hfront⟩
    have hlength := congrArg List.length hsplit
    rw [List.length_append, List.length_cons] at hlength
    have hrow : row.length = width :=
      hrows row (hsplit ▸ List.mem_append_right _ List.mem_cons_self)
    rcases drawRow_cases hgame hrow (by omega) hboard with
      ⟨drawn, hdraw, hdrawn, hshows, habove⟩ | ⟨error, herror, hfault⟩
    · refine .inl ⟨drawn, hdraw, ?_, fun y other hother ↦ ?_⟩
      · rwa [List.length_append, List.length_singleton]
      · rcases getElem?_concat_eq_some_iff.mp hother with hother | ⟨rfl, rfl⟩
        · have hy := (List.getElem?_eq_some_iff.mp hother).1
          exact (hfront y other hother).congr fun x ↦ habove x y hy
        · exact hshows
    · refine .inr ⟨error, herror, fun other hother ↦ ?_, hfault⟩
      obtain ⟨y, hy⟩ := List.mem_iff_getElem?.mp hother
      exact (hfront y other hy).allowsAll
  rcases hcases with ⟨board, hdraw, hboard, hshows⟩ |
    ⟨front, row, back, error, herror, hsplit, hfront, left, c, right, fault, rfl, hrest⟩
  · exact .inl ⟨board, hdraw, hboard.width_eq, hboard.height_eq, hshows⟩
  · exact .inr ⟨_, herror, front, row, back, left, c, right, fault, rfl, hsplit, hfront, hrest⟩

theorem ofDrawing_of_ragged {legend : Legend} {objects : Array Template} {layerCount place k : Nat}
    {drawing : Drawing}
    (h : (drawing.rows.findIdx? fun row ↦ row.length ≠ drawing.width) = some k) :
    ofDrawing legend objects layerCount (drawing, place) =
      .error (.nonRectangularLevel (drawing.line + k)) := by
  rw [Drawing.width] at h
  rw [ofDrawing, h]
  rfl

/-- The board filled up with the background, if there is one. -/
def withBackground (legend : Legend) (objects : Array Template) (board : Board) : Board :=
  (background? legend objects).elim board fun template ↦ board.fill template

theorem ofDrawing_of_even {legend : Legend} {objects : Array Template} {layerCount place : Nat}
    {drawing : Drawing}
    (h : (drawing.rows.findIdx? fun row ↦ row.length ≠ drawing.width) = none) :
    ofDrawing legend objects layerCount (drawing, place) =
      (drawing.rows.zipIdx.foldlM (drawRow legend objects drawing.line)
        (blank place drawing.width drawing.rows.length layerCount)).map
          (withBackground legend objects) := by
  rw [Drawing.width] at h ⊢
  rw [ofDrawing, h]
  change (drawing.rows.zipIdx.foldlM (drawRow legend objects drawing.line) _ >>= _) = _
  rcases drawing.rows.zipIdx.foldlM (drawRow legend objects drawing.line)
    (blank place _ drawing.rows.length layerCount) with error | board
  · rfl
  · rw [Except.map, withBackground]
    rcases background? legend objects with _ | template <;> rfl

/-- **A drawing is drawn and filled up unless a row is at fault**, and then this row is reported, on
the line that lies below the first one by its place. -/
theorem exists_drawn_cases (hgame : game.IsLayered) (drawing : Drawing) (place : Nat) :
    (∃ drawn : Board, ofDrawing game.legend game.objects game.layerCount (drawing, place) =
        .ok (drawn.withBackground game.legend game.objects) ∧
      (∀ row ∈ drawing.rows, row.length = drawing.width) ∧
      drawn.ShowsRows game drawing.width drawing.rows) ∨
    ∃ k fault, ofDrawing game.legend game.objects game.layerCount (drawing, place) =
      .error (fault (drawing.line + k)) ∧ drawing.FailsOn game k fault := by
  rcases hfind : drawing.rows.findIdx? fun row ↦ row.length ≠ drawing.width with _ | k
  · have heven : ∀ row ∈ drawing.rows, row.length = drawing.width := by
      intro row hrow
      simpa using List.findIdx?_eq_none_iff.mp hfind row hrow
    rw [ofDrawing_of_even hfind]
    rcases drawRows_cases drawing.line hgame place heven with
      ⟨drawn, hdraw, hshows⟩ | ⟨error, herror, above, row, below, left, c, right, fault, rfl,
        hrows, habove, hrow, hleft, hfault⟩
    · exact .inl ⟨drawn, by rw [hdraw]; rfl, heven, hshows⟩
    · exact .inr ⟨above.length, fault, by rw [herror]; rfl,
        .symbol heven hrows habove hrow hleft hfault⟩
  · obtain ⟨hk, hrow, habove⟩ := List.findIdx?_eq_some_iff_getElem.mp hfind
    refine .inr ⟨k, .nonRectangularLevel, ofDrawing_of_ragged hfind, ?_⟩
    have hrows : drawing.rows =
        drawing.rows.take k ++ drawing.rows[k] :: drawing.rows.drop (k + 1) := by
      rw [List.getElem_cons_drop, List.take_append_drop]
    have hplace : (drawing.rows.take k).length = k :=
      List.length_take_of_le (Nat.le_of_lt hk)
    have hfails : drawing.FailsOn game (drawing.rows.take k).length .nonRectangularLevel := by
      refine .ragged hrows (fun other hother ↦ ?_) (of_decide_eq_true hrow)
      obtain ⟨i, hi, rfl⟩ := List.mem_take_iff_getElem.mp hother
      simpa using habove i (by omega)
    rwa [hplace] at hfails

/-- **The board of a drawing is built unless a row is at fault.** -/
theorem ofDrawing_cases (hgame : game.IsLayered) (drawing : Drawing) (place : Nat) :
    (∃ board, ofDrawing game.legend game.objects game.layerCount (drawing, place) = .ok board ∧
      drawing.IsSound game) ∨
    ∃ k fault, ofDrawing game.legend game.objects game.layerCount (drawing, place) =
      .error (fault (drawing.line + k)) ∧ drawing.FailsOn game k fault := by
  refine (exists_drawn_cases hgame drawing place).imp_left ?_
  rintro ⟨drawn, hboard, heven, hshows⟩
  refine ⟨_, hboard, heven, fun row hrow ↦ ?_⟩
  obtain ⟨y, hy⟩ := List.mem_iff_getElem?.mp hrow
  exact (hshows.row y row hy).allowsAll

end Board

/-! ## The line of an error -/

namespace Game

variable {document : Document} {table : SymbolTable}

theorem ofTable_eq_of_levels (h : ofTable { document with levels := [] } table = .ok game) :
    ofTable document table = (document.levels.zipIdx.mapM
      (Board.ofDrawing game.legend game.objects game.layerCount)).map
        fun levels ↦ { game with levels := levels.toArray } := by
  obtain ⟨objects, hobjects, h⟩ := bind_eq_ok_iff.mp h
  obtain ⟨player, hplayer, h⟩ := bind_eq_ok_iff.mp h
  obtain ⟨groups, hgroups, h⟩ := bind_eq_ok_iff.mp h
  obtain ⟨conditions, hconditions, h⟩ := bind_eq_ok_iff.mp h
  obtain ⟨levels, -, h⟩ := bind_eq_ok_iff.mp h
  obtain rfl := pure_eq_ok_iff.mp h
  dsimp only at hobjects hgroups hconditions
  rw [ofTable, hobjects, hplayer, hgroups, hconditions]
  change (document.levels.zipIdx.mapM
    (Board.ofDrawing table.legend objects document.layers.length) >>= _) = _
  rcases document.levels.zipIdx.mapM
    (Board.ofDrawing table.legend objects document.layers.length) with error | levels <;> rfl

/-- What fails with its levels and not without them fails with a level. -/
theorem mapM_ofDrawing_eq_error {log : Log} {error : DefinitionError}
    (hgame : (ofDocument { document with levels := [] }).Gives game)
    (herror : ((ofDocument document).runOn log).1 = .error (.refused error)) :
    document.levels.zipIdx.mapM
      (Board.ofDrawing game.legend game.objects game.layerCount) = .error error := by
  obtain ⟨log', log'', hrun⟩ := hgame
  have hgiven : ofDocumentResult { document with levels := [] } = .ok game := by
    rw [← returns_ofDocument _ log', hrun]
  rw [returns_ofDocument document log] at herror
  obtain ⟨table, htable, hgiven⟩ := bind_eq_ok_iff.mp hgiven
  have hlevels := ofTable_eq_of_levels (mapError_eq_ok_iff.mp hgiven)
  have htable' : SymbolTable.buildResult document.objects document.legend = .ok table := htable
  rw [ofDocumentResult, htable'] at herror
  change (ofTable document table).mapError _ = _ at herror
  rw [hlevels] at herror
  -- with the levels built there would be a game
  rcases hdrawn : document.levels.zipIdx.mapM
    (Board.ofDrawing game.legend game.objects game.layerCount) with error' | levels
  · rw [hdrawn] at herror
    cases herror
    rfl
  · rw [hdrawn] at herror
    cases herror

/-- **The line of a level error** is the one on which the row at fault is written, short of the
separators between the first row of the level and this one. The first level with a row at fault is
the one that is reported. -/
theorem level_error_line {source : String} {log : Log} {error : DefinitionError}
    (hread : (Document.read source).Gives document)
    (hgame : (ofDocument { document with levels := [] }).Gives game)
    (herror : ((ofDocument document).runOn log).1 = .error (.refused error)) :
    ∃ before drawing after place fault lines between row number,
      document.levels = before ++ drawing :: after ∧ (∀ other ∈ before, other.IsSound game) ∧
      drawing.FailsOn game place fault ∧ error = fault number ∧
      Line.split source = .ok lines ∧ drawing.IsRowAt lines place between row ∧
      number + between.countP Line.isSeparator = row.number := by
  have hlayered : game.IsLayered := IsDefined.isLayered ⟨_, hgame⟩
  obtain ⟨lines, hlines, hdrawn⟩ := Document.exists_isDrawnOn_of_read hread
  obtain ⟨front, ⟨drawing, i⟩, back, hcut, hfails, hfront⟩ :=
    exists_of_mapM_eq_error (mapM_ofDrawing_eq_error hgame herror)
  obtain ⟨hlevels, -⟩ := eq_of_zipIdx_eq hcut
  rcases Board.ofDrawing_cases hlayered drawing i with
    ⟨board, hboard, -⟩ | ⟨place, fault, herror', hfault⟩
  · rw [hfails] at hboard
    cases hboard
  · obtain rfl := Except.error.inj (hfails.symm.trans herror')
    obtain ⟨written, hrun, hwritten⟩ :=
      hdrawn drawing (hlevels ▸ List.mem_append_right _ List.mem_cons_self)
    obtain ⟨between, row, hrow⟩ := hwritten.exists_isRowAt hlines hrun hfault.lt_length
    refine ⟨front.map Prod.fst, drawing, back.map Prod.fst, place, fault, lines, between, row,
      drawing.line + place, hlevels, ?_, hfault, rfl, hlines, hrow, hrow.number_eq.symm⟩
    intro other hother
    obtain ⟨⟨other, j⟩, hmem, rfl⟩ := List.mem_map.mp hother
    obtain ⟨board, hboard⟩ := hfront _ hmem
    rcases Board.ofDrawing_cases hlayered other j with ⟨-, -, hsound⟩ | ⟨_, _, hother', -⟩
    · exact hsound
    · rw [hboard] at hother'
      cases hother'

/-- A level of two rows with a separator between them; the lower row is of an undefined symbol. -/
def parted : String := "OBJECTS\nPlayer P\nCOLLISIONLAYERS\nPlayer\nLEVELS\nP\n=\n?\n"

/-- What is read of it. -/
def partedDocument : Document where
  settings := []
  objects := [⟨2, "Player", ["P"], [], []⟩]
  legend := []
  layers := [⟨4, ["Player"]⟩]
  rules := []
  winConditions := []
  levels := [⟨6, ["P", "?"]⟩]

theorem gives_parted : (Document.read parted).Gives partedDocument := by
  have hread : (Document.read parted).yields .empty (· == partedDocument) = true := by
    decide +kernel
  obtain ⟨document, log, hrun, hdocument⟩ := Logged.exists_of_yields hread
  exact ⟨.empty, log, eq_of_beq hdocument ▸ hrun⟩

/-- In the game without its level, one symbol of the level is defined and the other is not. -/
theorem exists_gives_partedDocument :
    ∃ game, (ofDocument { partedDocument with levels := [] }).Gives game ∧
      game.legend.lookup? "P" = some (.object (.ofIndex 0)) ∧ game.legend.lookup? "?" = none := by
  have hgame : (ofDocument { partedDocument with levels := [] }).yields .empty (fun game ↦
      game.legend.lookup? "P" == some (.object (.ofIndex 0)) &&
        game.legend.lookup? "?" == none) = true := by
    decide +kernel
  obtain ⟨game, log, hrun, hlegend⟩ := Logged.exists_of_yields hgame
  rw [Bool.and_eq_true, beq_iff_eq, beq_iff_eq] at hlegend
  exact ⟨game, ⟨.empty, log, hrun⟩, hlegend⟩

theorem ofDocument_parted : ((ofDocument partedDocument).runOn .empty).1 =
    .error (.refused (.undefinedName 7 "?")) := by
  have hfails : ((ofDocument partedDocument).runOn .empty).1.map (fun _ ↦ ()) =
      .error (.refused (.undefinedName 7 "?")) := by
    decide +kernel
  exact map_eq_error_iff.mp hfails

/-- The error names line 7, which is short of the lower row by the separator. -/
theorem level_error_line_parted : ∃ drawing ∈ partedDocument.levels,
    ∃ (place : Nat) (fault : Nat → DefinitionError) (lines between : List Line) (row : Line)
      (number : Nat), .undefinedName 7 "?" = fault number ∧ Line.split parted = .ok lines ∧
      drawing.IsRowAt lines place between row ∧
      number + between.countP Line.isSeparator = row.number := by
  obtain ⟨game, hgame, -, -⟩ := exists_gives_partedDocument
  obtain ⟨before, drawing, after, place, fault, lines, between, row, number, hlevels, -, -,
    hrest⟩ := level_error_line gives_parted hgame ofDocument_parted
  have hmem : drawing ∈ partedDocument.levels :=
    hlevels ▸ List.mem_append_right before List.mem_cons_self
  exact ⟨drawing, hmem, place, fault, lines, between, row, number, hrest⟩

theorem isRowAt_parted : Drawing.IsRowAt ⟨6, ["P", "?"]⟩ [⟨1, "OBJECTS"⟩, ⟨2, "Player P"⟩,
    ⟨3, "COLLISIONLAYERS"⟩, ⟨4, "Player"⟩, ⟨5, "LEVELS"⟩, ⟨6, "P"⟩, ⟨7, "="⟩, ⟨8, "?"⟩] 1
    [⟨6, "P"⟩, ⟨7, "="⟩] ⟨8, "?"⟩ where
  placed := ⟨[⟨1, "OBJECTS"⟩, ⟨2, "Player P"⟩, ⟨3, "COLLISIONLAYERS"⟩, ⟨4, "Player"⟩,
    ⟨5, "LEVELS"⟩], [], rfl, rfl⟩
  above := by decide
  text := rfl
  isSeparator := by decide
  number := rfl

/-- It is not so that a level error names the line on which the row at fault is written. -/
theorem not_forall_level_error_line :
    ¬∀ (source : String) (document : Document) (game : Game) (log : Log) (error : DefinitionError)
      (drawing : Drawing) (place : Nat) (fault : Nat → DefinitionError) (lines between : List Line)
      (row : Line), (Document.read source).Gives document →
      (ofDocument { document with levels := [] }).Gives game →
      ((ofDocument document).runOn log).1 = .error (.refused error) →
      document.levels = [drawing] → drawing.FailsOn game place fault →
      Line.split source = .ok lines → drawing.IsRowAt lines place between row →
      error = fault row.number := by
  intro h
  obtain ⟨game, hgame, hplayer, hundefined⟩ := exists_gives_partedDocument
  have hallowed : ∀ other ∈ ["P"], game.AllowsAll other.toList := by
    intro other hother c hc
    obtain rfl := List.mem_singleton.mp hother
    obtain rfl := List.mem_singleton.mp hc
    exact not_isSymbolFault_of_object hplayer
  have hchars : "?".toList = [] ++ '?' :: [] := by decide
  have hfails : Drawing.FailsOn game ⟨6, ["P", "?"]⟩ ["P"].length (.undefinedName · "?") :=
    .symbol (by decide) rfl hallowed hchars (fun c hc ↦ absurd hc List.not_mem_nil)
      (.undefined hundefined)
  have hline := h parted partedDocument game .empty _ _ 1 _ _ _ _ gives_parted hgame
    ofDocument_parted rfl hfails (by decide +kernel) isRowAt_parted
  cases hline

end Game

end TilePuzzle
