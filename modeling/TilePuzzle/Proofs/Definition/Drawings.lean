import TilePuzzle.Proofs.Definition.LevelFaults
import TilePuzzle.Proofs.Definition.Namespace

/-!
# Boards show what is drawn

A drawing becomes a board if its rows are of one width and every character stands for objects that
can be in one cell. Then the board has a cell for every character, and in it are the objects of the
character, each on its layer. The object named `background` is in every cell whose characters leave
its layer free. There is nothing else on the board, and nothing intends to move.

## What is asked for

`IsShownBy` says this of a board and a drawing without a word about how boards are drawn. Of the
game it takes the names, objects and layers only, so the drawing need not be one of the levels of
the document that the game comes from (`Game.IsNamedBy`).

## What is done

Symbols are drawn one by one, and only the finished board is filled up with the background. The
cells of the drawn board show the objects of their characters (`ShowsRows`), and to fill up such a
cell adds the one object that the drawing asks for besides (`exists_cell?_withBackground`).
-/

namespace TilePuzzle

/-! ## What a drawing asks for -/

/-- The names, objects and layers of a game are those of a document. Of the rest of the game nothing
is said. -/
def Game.IsNamedBy (game : Game) (document : Document) : Prop :=
  ∃ table, (SymbolTable.build document.objects document.legend).Gives table ∧
    table.templates document.layers = .ok game.objects ∧ game.legend = table.legend ∧
    game.layerCount = document.layers.length

/-- An object alone is named `background`, and none of the listed objects stands on its layer. -/
def Game.IsBackdrop (game : Game) (ids : List ObjectId) (object : ObjectId) : Prop :=
  game.legend.lookup? "background" = some (.object object) ∧
    ∀ id ∈ ids, game.layer? id ≠ game.layer? object

namespace Drawing

/-- The rows are of one width, and every character stands for objects on different layers. -/
structure IsDrawable (game : Game) (drawing : Drawing) : Prop where
  even : ∀ row ∈ drawing.rows, ∀ other ∈ drawing.rows, row.length = other.length
  drawn : ∀ row ∈ drawing.rows, ∀ c ∈ row.toList, ∃ ids,
    game.legend.drawn? (.ofList [c]) = some ids ∧ ∀ layer, ¬game.IsShared ids layer

/-- A board has a cell for every character of a drawing. In the cell are the objects of the
character, each on its layer, and the background if its layer is free; nothing else is in it. -/
structure IsShownBy (game : Game) (drawing : Drawing) (board : Board) : Prop where
  width_eq : board.width = drawing.width
  height_eq : board.height = drawing.rows.length
  cell : ∀ (x y : Nat) (row : String) (c : Char), drawing.rows[y]? = some row →
    row.toList[x]? = some c → ∃ ids cell, game.legend.drawn? (.ofList [c]) = some ids ∧
      board.cell? ⟨x, y⟩ = some cell ∧ cell.slots.length = game.layerCount ∧
      (∀ id ∈ ids, ∃ layer, game.layer? id = some layer) ∧
      ∀ layer occupant, cell.occupant? layer = some occupant ↔ occupant.movement = none ∧
        game.layer? occupant.object = some layer ∧
        (occupant.object ∈ ids ∨ game.IsBackdrop ids occupant.object)

end Drawing

theorem Game.forall_not_isSymbolFault_iff {game : Game} {symbol : String} :
    (∀ fault, ¬game.IsSymbolFault symbol fault) ↔
      ∃ ids, game.legend.drawn? symbol = some ids ∧ ∀ layer, ¬game.IsShared ids layer := by
  constructor
  · intro h
    rcases hdrawn : game.legend.drawn? symbol with _ | ids
    · obtain ⟨fault, -, hfault⟩ := Board.drawnObjects_of_drawn?_eq_none hdrawn 0
      exact absurd hfault (h fault)
    · exact ⟨ids, rfl, fun layer hshared ↦ h _ (Game.isSymbolFault_of_isShared hdrawn hshared)⟩
  · rintro ⟨ids, hdrawn, hshared⟩
    exact Game.not_isSymbolFault_of_drawn? hdrawn hshared

/-! ## Named games -/

namespace Game.IsNamedBy

variable {game : Game} {document : Document}

theorem placed (h : game.IsNamedBy document) : Template.Placed game.layerCount game.objects := by
  obtain ⟨table, htable, hobjects, -, hcount⟩ := h
  rw [hcount]
  exact (SymbolTable.placed_of_templates (SymbolTable.isClosed_of_build htable) hobjects).2

theorem exists_template (h : game.IsNamedBy document) {name : String} {meaning : Meaning}
    (hname : game.legend.lookup? name = some meaning) {id : ObjectId} (hid : id ∈ meaning.ids) :
    ∃ template, game.template? id = some template := by
  obtain ⟨table, htable, hobjects, hlegend, -⟩ := h
  have hclosed := SymbolTable.isClosed_of_build htable
  rw [hlegend] at hname
  have hlt : id.index < game.objects.size := by
    rw [(SymbolTable.placed_of_templates hclosed hobjects).1]
    exact hclosed.within.lookup? hname id hid
  exact ⟨_, Array.getElem?_eq_getElem hlt⟩

theorem exists_layer (h : game.IsNamedBy document) {symbol : String} {ids : List ObjectId}
    (hdrawn : game.legend.drawn? symbol = some ids) :
    ∀ id ∈ ids, ∃ layer, game.layer? id = some layer := by
  intro id hid
  rw [Legend.drawn?] at hdrawn
  have hmentioned : ∃ meaning, game.legend.lookup? symbol = some meaning ∧ id ∈ meaning.ids := by
    split at hdrawn
    · next hlookup =>
      obtain rfl := Option.some.inj hdrawn
      exact ⟨_, hlookup, hid⟩
    · next hlookup =>
      obtain rfl := Option.some.inj hdrawn
      exact ⟨_, hlookup, hid⟩
    · cases hdrawn
    · cases hdrawn
  obtain ⟨meaning, hlookup, hid⟩ := hmentioned
  obtain ⟨template, htemplate⟩ := h.exists_template hlookup hid
  exact ⟨template.layer, layer?_of_template? htemplate⟩

/-- The background is the object that alone is named so. -/
theorem background?_eq_some_iff (h : game.IsNamedBy document) {template : Template} :
    Board.background? game.legend game.objects = some template ↔
      game.legend.lookup? "background" = some (.object template.id) ∧
        game.template? template.id = some template := by
  rw [Board.background?]
  constructor
  · intro hbackground
    split at hbackground
    · next id hlookup =>
      obtain ⟨rfl, -⟩ := h.placed.layer? hbackground
      exact ⟨hlookup, hbackground⟩
    · cases hbackground
  · rintro ⟨hlookup, htemplate⟩
    rw [hlookup]
    exact htemplate

end Game.IsNamedBy

theorem Game.isNamedBy_of_ofDocument {game : Game} {document : Document}
    (h : (ofDocument document).Gives game) : game.IsNamedBy document := by
  obtain ⟨table, htable, hgame⟩ := ofDocument_gives_iff.mp h
  exact ⟨table, htable, ofTable_eq_ok hgame⟩

/-! ## Filling up a cell -/

namespace Cell

variable {game : Game} {cell : Cell} {ids : List ObjectId}

theorem IsStill.occupant?_eq_some_iff (h : cell.IsStill) {layer : LayerId} {occupant : Occupant} :
    cell.occupant? layer = some occupant ↔
      occupant.movement = none ∧ cell.object? layer = some occupant.object := by
  rw [object?, Option.map_eq_some_iff]
  have hstill : ∀ found, cell.occupant? layer = some found → found.movement = none :=
    fun found hfound ↦ h found (List.mem_of_getElem? (Cell.occupant?_eq_some_iff.mp hfound))
  constructor
  · intro hocc
    exact ⟨hstill occupant hocc, occupant, hocc, rfl⟩
  · rintro ⟨hmovement, found, hfound, hobject⟩
    have hsame : found = occupant := calc
      found = found.settle := (Occupant.settle_eq_self (hstill found hfound)).symm
      _ = occupant.settle := congrArg Occupant.still hobject
      _ = occupant := Occupant.settle_eq_self hmovement
    exact hsame ▸ hfound

/-- The cell with an object put on its layer if nothing is there. -/
def fill (template : Template) (cell : Cell) : Cell :=
  match cell.occupant? template.layer with
  | none => cell.put template.layer (.still template.id)
  | some _ => cell

theorem Shows.object?_fill (h : cell.Shows game ids) (hgame : game.IsLayered) {template : Template}
    (hlayer : game.layer? template.id = some template.layer) (layer : LayerId)
    (object : ObjectId) : (cell.fill template).object? layer = some object ↔
      game.layer? object = some layer ∧ (object ∈ ids ∨
        object = template.id ∧ ∀ id ∈ ids, game.layer? id ≠ game.layer? object) := by
  rw [fill]
  rcases hocc : cell.occupant? template.layer with _ | occupant
  · have hempty : cell.object? template.layer = none := by
      rw [object?, hocc, Option.map_none]
    have hfree : ∀ id ∈ ids, game.layer? id ≠ game.layer? template.id := by
      intro id hid hsame
      rw [(h.object?_eq_some_iff template.layer id).mpr ⟨hid, hsame.trans hlayer⟩] at hempty
      cases hempty
    dsimp only
    rw [(h.put hgame hlayer hempty).object?_eq_some_iff, and_comm, List.mem_append,
      List.mem_singleton]
    refine and_congr_right fun _ ↦ or_congr_right ?_
    exact ⟨fun hobject ↦ ⟨hobject, hobject ▸ hfree⟩, And.left⟩
  · have hobject : cell.object? template.layer = some occupant.object := by
      rw [object?, hocc, Option.map_some]
    obtain ⟨hmem, hown⟩ := (h.object?_eq_some_iff _ _).mp hobject
    dsimp only
    rw [h.object?_eq_some_iff, and_comm]
    refine and_congr_right fun _ ↦ (or_iff_left ?_).symm
    rintro ⟨rfl, hfree⟩
    exact hfree occupant.object hmem (hown.trans hlayer.symm)

end Cell

/-! ## Boards -/

namespace Board

variable {game : Game} {document : Document} {drawing : Drawing} {drawn : Board} {place : Nat}

theorem fill_eq (template : Template) (board : Board) :
    board.fill template = board.mapCells (.fill template) := rfl

/-- After filling up, a cell holds the objects of its character and the backdrop. -/
theorem exists_cell?_withBackground (h : game.IsNamedBy document) {position : Position}
    {cell : Cell} {ids : List ObjectId} (hcell : drawn.cell? position = some cell)
    (hshows : cell.Shows game ids) :
    ∃ filled, (drawn.withBackground game.legend game.objects).cell? position = some filled ∧
      ∀ layer object, filled.object? layer = some object ↔
        game.layer? object = some layer ∧ (object ∈ ids ∨ game.IsBackdrop ids object) := by
  rw [withBackground]
  rcases hbackground : background? game.legend game.objects with _ | template
  · refine ⟨cell, hcell, fun layer object ↦ ?_⟩
    have hnone : ¬game.IsBackdrop ids object := by
      rintro ⟨hlookup, -⟩
      obtain ⟨template, htemplate⟩ := h.exists_template hlookup List.mem_cons_self
      obtain ⟨rfl, -⟩ := h.placed.layer? htemplate
      have hsome := h.background?_eq_some_iff.mpr ⟨hlookup, htemplate⟩
      rw [hbackground] at hsome
      cases hsome
    rw [hshows.object?_eq_some_iff, or_iff_left hnone, and_comm]
  · obtain ⟨hlookup, htemplate⟩ := h.background?_eq_some_iff.mp hbackground
    refine ⟨_, ?_, fun layer object ↦ (hshows.object?_fill h.placed.isLayered
      (Game.layer?_of_template? htemplate) layer object).trans ?_⟩
    · simp [fill_eq, hcell]
    · have hname : game.legend.lookup? "background" = some (.object object) ↔
          object = template.id := by
        rw [hlookup, Option.some.injEq, Meaning.object.injEq, eq_comm]
      rw [Game.IsBackdrop, hname]

/-- A board whose cells show a drawing is filled up to one that the drawing asks for. -/
theorem ShowsRows.isShownBy (h : drawn.ShowsRows game drawing.width drawing.rows)
    (hnamed : game.IsNamedBy document)
    (hfits : (drawn.withBackground game.legend game.objects).Fits game)
    (hstill : (drawn.withBackground game.legend game.objects).IsStill) :
    drawing.IsShownBy game (drawn.withBackground game.legend game.objects) := by
  have hshape : SameShape drawn (drawn.withBackground game.legend game.objects) := by
    rw [withBackground]
    cases background? game.legend game.objects with
    | none => exact .refl drawn
    | some template => exact sameShape_mapCells _ drawn
  refine ⟨hshape.width.trans h.width_eq, hshape.height.trans h.height_eq, ?_⟩
  intro x y row c hrow hc
  obtain ⟨ids, cell, hdrawn, hcell, hshows⟩ := h.row y row hrow x c hc
  obtain ⟨filled, hfilled, hobjects⟩ := exists_cell?_withBackground hnamed hcell hshows
  have hmem := mem_cells_of_cell? hfilled
  refine ⟨ids, filled, hdrawn, hfilled, (hfits filled hmem).length_slots,
    hnamed.exists_layer hdrawn, fun layer occupant ↦ ?_⟩
  rw [(hstill filled hmem).occupant?_eq_some_iff, hobjects]

theorem isSound_iff_isDrawable : drawing.IsSound game ↔ drawing.IsDrawable game := by
  have hallowed : (∀ row ∈ drawing.rows, game.AllowsAll row.toList) ↔
      ∀ row ∈ drawing.rows, ∀ c ∈ row.toList, ∃ ids,
        game.legend.drawn? (.ofList [c]) = some ids ∧ ∀ layer, ¬game.IsShared ids layer := by
    simp only [Game.AllowsAll, Game.forall_not_isSymbolFault_iff]
  constructor
  · intro h
    exact ⟨fun row hrow other hother ↦ (h.even row hrow).trans (h.even other hother).symm,
      hallowed.mp h.allowed⟩
  · intro h
    refine ⟨fun row hrow ↦ ?_, hallowed.mpr h.drawn⟩
    -- there is a first row, and it gives the width
    rw [Drawing.width]
    rcases hrows : drawing.rows with _ | ⟨first, rest⟩
    · rw [hrows] at hrow
      exact absurd hrow List.not_mem_nil
    · exact h.even row hrow first (hrows ▸ List.mem_cons_self)

/-- **Boards show just what is drawn.** Let the names of a game be those of a document. Then a
drawing becomes a board just if its rows are of one width and every character stands for objects on
different layers, and the board shows the drawing. -/
theorem ofDrawing_exact (h : game.IsNamedBy document) (drawing : Drawing) (place : Nat) :
    ((∃ board, ofDrawing game.legend game.objects game.layerCount (drawing, place) = .ok board) ↔
      drawing.IsDrawable game) ∧
    ∀ board, ofDrawing game.legend game.objects game.layerCount (drawing, place) = .ok board →
      board.index = place ∧ drawing.IsShownBy game board := by
  have hlayered := h.placed.isLayered
  constructor
  · rw [← isSound_iff_isDrawable]
    constructor
    · rintro ⟨board, hboard⟩
      rcases ofDrawing_cases hlayered drawing place with ⟨-, -, hsound⟩ | ⟨k, fault, herror, -⟩
      · exact hsound
      · rw [hboard] at herror
        cases herror
    · intro hsound
      rcases ofDrawing_cases hlayered drawing place with ⟨board, hboard, -⟩ | ⟨k, fault, -, hfails⟩
      · exact ⟨board, hboard⟩
      · exact absurd hsound hfails.not_isSound
  · intro board hboard
    obtain ⟨hindex, hfits, hstill⟩ := ofDrawing_eq_ok h.placed hboard
    rcases exists_drawn_cases hlayered drawing place with
      ⟨drawn, hdrawn, -, hshows⟩ | ⟨k, fault, herror, -⟩
    · obtain rfl := Except.ok.inj (hboard.symm.trans hdrawn)
      exact ⟨hindex, hshows.isShownBy h hfits hstill⟩
    · rw [hboard] at herror
      cases herror

/-- A shrine with an altar, at which the player may stand. -/
def shrine : Document where
  settings := []
  objects := [⟨2, "Background", ["."], [], []⟩, ⟨4, "Player", ["P"], [], []⟩,
    ⟨6, "Wall", ["#"], [], []⟩, ⟨8, "Altar", ["A"], [], []⟩]
  legend := [⟨11, "*", .together, ["player", "ALTAR", "Player"]⟩]
  layers := [⟨13, ["Background"]⟩, ⟨14, ["Altar"]⟩, ⟨15, ["Player", "Wall"]⟩]
  rules := []
  winConditions := []
  levels := [⟨17, ["#*", ".p"]⟩]

/-- The level of the shrine is drawable, and its board shows it. -/
theorem ofDrawing_exact_shrine : ∃ (game : Game) (board : Board), game.IsNamedBy shrine ∧
    ofDrawing game.legend game.objects game.layerCount (⟨17, ["#*", ".p"]⟩, 0) = .ok board ∧
    Drawing.IsDrawable game ⟨17, ["#*", ".p"]⟩ ∧
    Drawing.IsShownBy game ⟨17, ["#*", ".p"]⟩ board := by
  have hgame : (Game.ofDocument shrine).yields .empty (fun game ↦
      (ofDrawing game.legend game.objects game.layerCount (⟨17, ["#*", ".p"]⟩, 0)).isOk) =
        true := by
    decide +kernel
  obtain ⟨game, log, hrun, hdrawn⟩ := Logged.exists_of_yields hgame
  have hnamed : game.IsNamedBy shrine := Game.isNamedBy_of_ofDocument ⟨.empty, log, hrun⟩
  rcases hboard : ofDrawing game.legend game.objects game.layerCount
    (⟨17, ["#*", ".p"]⟩, 0) with error | board
  · rw [hboard] at hdrawn
    cases hdrawn
  · obtain ⟨hdrawable, hshown⟩ := ofDrawing_exact hnamed ⟨17, ["#*", ".p"]⟩ 0
    exact ⟨game, board, hnamed, hboard, hdrawable.mp ⟨board, hboard⟩, (hshown board hboard).2⟩

end Board

end TilePuzzle
