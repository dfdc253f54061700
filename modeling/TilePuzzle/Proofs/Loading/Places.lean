import TilePuzzle.Definition
import TilePuzzle.Proofs.Board
import TilePuzzle.Proofs.Definition.Names
import TilePuzzle.Proofs.Definition.Sprite

/-!
# Lists are read where they have elements

While a game is put together, things are fetched by their numbers: a required object is looked up in
a list of what is kept already, the layer of an object in a table, the cell of a symbol on a board.
And a row of a sprite is filled up by as much as it is shorter than the longest one.

## Accesses that may fail

Here these stages are written down with accesses that may fail (`Accessing`). An access that fails
has no result, which is not the same as refusing the document. It is proved that none fails, so that
every stage gives what it gives.

## Why none fails

To compare a computation with the one that may fail is to go through both in step (`bind_eq_lift`);
in a loop the accesses succeed as long as an invariant holds (`foldlM_eq_lift`). The invariant is
always about a size: the list of kept requirements is as long as the requirements, the table has a
place for every object, and the board keeps its shape.
-/

namespace TilePuzzle

/-! ## Accesses -/

/-- A computation that may refuse bad input, and that has no result if an access fails. -/
abbrev Accessing (ε : Type) := ExceptT ε Option

namespace Accessing

variable {ε α β σ : Type}

/-- A computation without an access. -/
def lift (result : Except ε α) : Accessing ε α := ExceptT.mk (some result)

/-- Fetches what is in a place, which has to be there. -/
def fetch (element : Option α) : Accessing ε α := ExceptT.mk (element.map .ok)

@[simp] theorem fetch_some (a : α) : (fetch (some a) : Accessing ε α) = pure a := rfl

/-- If no access of the parts fails, none of the whole fails. -/
theorem bind_eq_lift {result : Except ε α} {f : α → Accessing ε β} {g : α → Except ε β}
    (h : ∀ a, result = .ok a → f a = lift (g a)) : lift result >>= f = lift (result >>= g) := by
  cases result with
  | error e => rfl
  | ok a => exact h a rfl

/-- If no access of the steps of a fold fails, none of the fold fails. The steps need to succeed
only where an invariant holds. -/
theorem foldlM_eq_lift {f : σ → α → Accessing ε σ} {g : σ → α → Except ε σ} {P : σ → Prop}
    {xs : List α} {s : σ}
    (step : ∀ s x, x ∈ xs → P s → f s x = lift (g s x) ∧ ∀ s', g s x = .ok s' → P s')
    (hs : P s) : xs.foldlM f s = lift (xs.foldlM g s) := by
  induction xs generalizing s with
  | nil => rfl
  | cons x xs ih =>
    obtain ⟨hfirst, hnext⟩ := step s x List.mem_cons_self hs
    rw [List.foldlM_cons, List.foldlM_cons, hfirst]
    refine bind_eq_lift fun s' hs' ↦ ih (fun s y hy ↦ ?_) (hnext s' hs')
    exact step s y (List.mem_cons_of_mem x hy)

end Accessing

open Accessing (lift fetch fetch_some bind_eq_lift foldlM_eq_lift)

/-! ## Requirements that are kept -/

namespace RuleCell

/-- To keep a requirement for a set is to find it and to write it. -/
theorem claim?_eq (objects : ObjectSet) (write : MovementTest → IntentWrite)
    (requirements : List Requirement) :
    claim? objects write requirements =
      (requirements.findIdx? fun requirement ↦
        requirement.fate = .remove ∧ requirement.objects = objects).bind fun index ↦
          requirements[index]?.map fun requirement ↦
            requirements.set index { requirement with fate := .keep (write requirement.test) } := by
  induction requirements with
  | nil => rfl
  | cons requirement rest ih =>
    rw [claim?, List.findIdx?_cons]
    by_cases h : requirement.fate = .remove ∧ requirement.objects = objects
    · rw [if_pos h, if_pos (decide_eq_true h)]
      rfl
    · rw [if_neg h, if_neg (by simpa using h), ih]
      cases rest.findIdx? fun requirement ↦
          requirement.fate = .remove ∧ requirement.objects = objects with
      | none => rfl
      | some index => simp [Option.map_map, Function.comp_def]

end RuleCell

/-- A rule cell being put together, with a list of its required sets and of whether each of them is
kept already. -/
structure ClaimedCell where
  cell : RuleCell
  claims : List (ObjectSet × Bool)

namespace ClaimedCell

/-- A requirement in the list. -/
def claimOf (requirement : Requirement) : ObjectSet × Bool :=
  (requirement.objects, requirement.fate ≠ .remove)

/-- The cell with its list. -/
def of (cell : RuleCell) : ClaimedCell := ⟨cell, cell.requirements.map claimOf⟩

/-- Keeps the first requirement for a set that is not kept yet, if there is one: it is found in the
list, and the requirement is in the same place. -/
def claimAt (objects : ObjectSet) (write : MovementTest → IntentWrite) (claimed : ClaimedCell) :
    Accessing DefinitionError (Option ClaimedCell) :=
  match claimed.claims.findIdx? fun claim ↦ !claim.2 && claim.1 == objects with
  | none => return none
  | some index => do
    let claim ← fetch claimed.claims[index]?
    let requirement ← fetch claimed.cell.requirements[index]?
    let kept := { requirement with fate := .keep (write requirement.test) }
    return some {
      cell := { claimed.cell with requirements := claimed.cell.requirements.set index kept }
      claims := claimed.claims.set index (claim.1, true) }

/-- Keeps a requirement for an object, or spawns the object. -/
def keepOrSpawnAt (along : Direction) (word : Option MovementWord) (claimed : ClaimedCell)
    (id : ObjectId) : Accessing DefinitionError ClaimedCell := do
  match ← claimed.claimAt (.single id) (.ofWord along word) with
  | some claimed => return claimed
  | none =>
    let spawns := claimed.cell.spawns ++ [⟨id, word.bind (·.movement? along)⟩]
    return { claimed with cell := { claimed.cell with spawns } }

/-- Adds a left term. -/
def addLeftAt (legend : Legend) (line : Nat) (along : Direction) (claimed : ClaimedCell)
    (term : PatternTerm) : Accessing DefinitionError ClaimedCell := do
  let meaning ← lift (legend.resolve line term.name)
  let test := MovementTest.ofWord along term.movement
  if term.negated then
    let exclusions := claimed.cell.exclusions ++ [⟨meaning.objects, test⟩]
    return { claimed with cell := { claimed.cell with exclusions } }
  else
    let sets := RuleCell.requiredSets meaning
    let requirements := claimed.cell.requirements ++ sets.map fun objects ↦ ⟨objects, test, .remove⟩
    return {
      cell := { claimed.cell with requirements }
      claims := claimed.claims ++ sets.map fun objects ↦ (objects, false) }

/-- Adds a right term. -/
def addRightAt (legend : Legend) (line : Nat) (along : Direction) (claimed : ClaimedCell)
    (term : PatternTerm) : Accessing DefinitionError ClaimedCell := do
  let meaning ← lift (legend.resolve line term.name)
  if term.negated then
    let clears := claimed.cell.clears ++ [meaning.objects]
    return { claimed with cell := { claimed.cell with clears } }
  else
    match meaning with
    | .object id => claimed.keepOrSpawnAt along term.movement id
    | .aggregate members => members.foldlM (keepOrSpawnAt along term.movement) claimed
    | .property members =>
      match ← claimed.claimAt members (.ofWord along term.movement) with
      | some claimed => return claimed
      | none => lift (.error (.unboundProperty line term.name))

/-- The rule cell of a left cell and the right cell across from it, if there is a right side. -/
def ofPatternAt (legend : Legend) (line : Nat) (along : Direction) (left : CellPattern)
    (right : Option CellPattern) : Accessing DefinitionError RuleCell := do
  let claimed ← left.foldlM (addLeftAt legend line along) (of .empty)
  match right with
  | none => return claimed.cell.keepAll
  | some right =>
    let claimed ← right.foldlM (addRightAt legend line along) claimed
    return claimed.cell

variable {legend : Legend} {line : Nat} {along : Direction}

theorem claimAt_of (objects : ObjectSet) (write : MovementTest → IntentWrite) (cell : RuleCell) :
    (of cell).claimAt objects write = lift (.ok ((RuleCell.claim? objects write
      cell.requirements).map fun requirements ↦ of { cell with requirements })) := by
  have htest : (fun claim : ObjectSet × Bool ↦ !claim.2 && claim.1 == objects) ∘ claimOf =
      fun requirement ↦ decide (requirement.fate = .remove ∧ requirement.objects = objects) := by
    funext requirement
    rw [Bool.eq_iff_iff]
    simp [claimOf]
  have hfind : (of cell).claims.findIdx? (fun claim ↦ !claim.2 && claim.1 == objects) =
      cell.requirements.findIdx? fun requirement ↦
        decide (requirement.fate = .remove ∧ requirement.objects = objects) := by
    rw [of, List.findIdx?_map, htest]
  rw [claimAt, RuleCell.claim?_eq, hfind]
  cases hindex : cell.requirements.findIdx? fun requirement ↦
      decide (requirement.fate = .remove ∧ requirement.objects = objects) with
  | none => rfl
  | some index =>
    have hlt : index < cell.requirements.length :=
      (List.findIdx?_eq_some_iff_findIdx_eq.mp hindex).1
    have hrequirement : cell.requirements[index]? = some cell.requirements[index] :=
      List.getElem?_eq_getElem hlt
    have hclaim : (of cell).claims[index]? = some (claimOf cell.requirements[index]) := by
      rw [of, List.getElem?_map, hrequirement]
      rfl
    dsimp only
    rw [hclaim, fetch_some, pure_bind, show (of cell).cell = cell from rfl, hrequirement,
      fetch_some, pure_bind, Option.bind_some, hrequirement, Option.map_some, Option.map_some]
    refine congrArg (fun claims ↦ lift (.ok (some (ClaimedCell.mk _ claims)))) ?_
    rw [of, List.map_set]
    rfl

theorem keepOrSpawnAt_of (word : Option MovementWord) (cell : RuleCell) (id : ObjectId) :
    (of cell).keepOrSpawnAt along word id = lift (.ok (of (cell.keepOrSpawn along word id))) := by
  rw [keepOrSpawnAt, claimAt_of, RuleCell.keepOrSpawn]
  cases RuleCell.claim? (.single id) (.ofWord along word) cell.requirements with
  | none => rfl
  | some requirements => rfl

theorem foldlM_keepOrSpawnAt_of (word : Option MovementWord) (cell : RuleCell)
    (ids : List ObjectId) : ids.foldlM (keepOrSpawnAt along word) (of cell) =
      lift (.ok (of (ids.foldl (RuleCell.keepOrSpawn along word) cell))) := by
  induction ids generalizing cell with
  | nil => rfl
  | cons id ids ih =>
    rw [List.foldlM_cons, keepOrSpawnAt_of, List.foldl_cons, ← ih]
    rfl

theorem addLeftAt_of (cell : RuleCell) (term : PatternTerm) :
    (of cell).addLeftAt legend line along term =
      lift ((RuleCell.addLeft legend line along cell term).map of) := by
  rw [addLeftAt, RuleCell.addLeft]
  cases legend.resolve line term.name with
  | error error => rfl
  | ok meaning =>
    change (if term.negated = true then _ else _) = lift (Except.map of (if _ then _ else _))
    split
    · rfl
    · refine congrArg (fun claims ↦ lift (.ok (ClaimedCell.mk _ claims))) ?_
      rw [of, List.map_append, List.map_map]
      rfl

theorem addRightAt_of (cell : RuleCell) (term : PatternTerm) :
    (of cell).addRightAt legend line along term =
      lift ((RuleCell.addRight legend line along cell term).map of) := by
  rw [addRightAt, RuleCell.addRight]
  cases legend.resolve line term.name with
  | error error => rfl
  | ok meaning =>
    change (if term.negated = true then _ else _) = lift (Except.map of (if _ then _ else _))
    split
    · rfl
    · cases meaning with
      | object id => exact keepOrSpawnAt_of term.movement cell id
      | aggregate members => exact foldlM_keepOrSpawnAt_of term.movement cell members
      | property members =>
        dsimp only
        rw [claimAt_of]
        cases RuleCell.claim? members (.ofWord along term.movement) cell.requirements with
        | none => rfl
        | some requirements => rfl

theorem foldlM_of {stepAt : ClaimedCell → PatternTerm → Accessing DefinitionError ClaimedCell}
    {step : RuleCell → PatternTerm → Except DefinitionError RuleCell}
    (hstep : ∀ cell term, stepAt (of cell) term = lift ((step cell term).map of))
    (terms : List PatternTerm) (cell : RuleCell) :
    terms.foldlM stepAt (of cell) = lift ((terms.foldlM step cell).map of) := by
  induction terms generalizing cell with
  | nil => rfl
  | cons term terms ih =>
    rw [List.foldlM_cons, List.foldlM_cons, hstep]
    cases step cell term with
    | error error => rfl
    | ok next => exact ih next

/-- **Every requirement that is claimed is there.** -/
theorem ofPatternAt_eq (legend : Legend) (line : Nat) (along : Direction) (left : CellPattern)
    (right : Option CellPattern) :
    ofPatternAt legend line along left right =
      lift (RuleCell.ofPattern legend line along left right) := by
  rw [ofPatternAt, foldlM_of addLeftAt_of, RuleCell.ofPattern]
  cases left.foldlM (RuleCell.addLeft legend line along) .empty with
  | error error => rfl
  | ok cell =>
    cases right with
    | none => rfl
    | some right =>
      change (right.foldlM (addRightAt legend line along) (of cell)) >>= _ = _
      rw [foldlM_of addRightAt_of]
      change _ = lift (right.foldlM (RuleCell.addRight legend line along) cell)
      cases right.foldlM (RuleCell.addRight legend line along) cell with
      | error error => rfl
      | ok cell => rfl

end ClaimedCell

/-! ## Rows of sprites -/

namespace ObjectDeclaration

/-- The pixels of a row, filled up to a given width, which the row may not exceed. -/
def rowPixelsAt (colors width : Nat) (row : String) : Option (List (Option Nat)) :=
  if row.length ≤ width then
    some (row.toList.map (pixel? colors) ++ .replicate (width - row.length) none)
  else
    none

/-- **No row is longer than the longest one.** -/
theorem mapM_rowPixelsAt (declaration : ObjectDeclaration) (colors : Nat) :
    declaration.sprite.mapM (rowPixelsAt colors declaration.width) =
      some (declaration.sprite.map (rowPixels colors declaration.width)) := by
  have hrow : ∀ row ∈ declaration.sprite, rowPixelsAt colors declaration.width row =
      some (rowPixels colors declaration.width row) := by
    intro row hrow
    exact if_pos (length_le_width hrow)
  generalize declaration.width = width at hrow ⊢
  generalize declaration.sprite = rows at hrow ⊢
  induction rows with
  | nil => rfl
  | cons row rows ih =>
    rw [List.mapM_cons, hrow row List.mem_cons_self,
      ih fun other hother ↦ hrow other (List.mem_cons_of_mem row hother)]
    rfl

end ObjectDeclaration

/-! ## Layers of objects -/

namespace LayerAssignment

/-- Puts an object that is named on a given line on a layer. The object has a place in the table of
layers, and it is in the table of objects if the line is refused. -/
def assignAt (table : SymbolTable) (line : Nat) (layer : LayerId) (assignment : LayerAssignment)
    (id : ObjectId) : Accessing DefinitionError LayerAssignment := do
  let present ← fetch assignment[id.index]?
  if present.any (· ≠ layer) then
    let object ← fetch table.objects[id.index]?
    lift (.error (.multipleLayers line object.identifier))
  else
    return assignment.setIfInBounds id.index (some layer)

/-- Puts everything that a name denotes on a layer. -/
def assignNameAt (table : SymbolTable) (line : Nat) (layer : LayerId)
    (assignment : LayerAssignment) (name : String) : Accessing DefinitionError LayerAssignment := do
  let meaning ← lift (table.legend.resolve line name)
  meaning.objects.ids.foldlM (assignAt table line layer) assignment

/-- Takes up the layer that is declared in a given place. -/
def assignLayerAt (table : SymbolTable) (assignment : LayerAssignment) :
    LayerDeclaration × Nat → Accessing DefinitionError LayerAssignment
  | (layer, place) =>
    if maxLayers < place then
      lift (.error (.tooManyLayers maxLayers))
    else
      layer.names.foldlM (assignNameAt table layer.line (.ofIndex place)) assignment

/-- The layers that the layer lines give to the objects. -/
def buildAt (table : SymbolTable) (layers : List LayerDeclaration) :
    Accessing DefinitionError LayerAssignment :=
  layers.zipIdx.foldlM (assignLayerAt table) (.replicate table.objects.size none)

variable {table : SymbolTable} {assignment : LayerAssignment}

theorem assignAt_eq (hsize : assignment.size = table.objects.size) (line : Nat) (layer : LayerId)
    {id : ObjectId} (hid : id.index < table.objects.size) :
    assignAt table line layer assignment id = lift (assign table line layer assignment id) := by
  have hpresent : assignment[id.index]? = some assignment[id.index] :=
    Array.getElem?_eq_getElem (hsize ▸ hid)
  have hobject : table.objects[id.index]? = some table.objects[id.index] :=
    Array.getElem?_eq_getElem hid
  rw [assignAt, assign, hpresent, fetch_some, pure_bind, Option.join_some]
  cases hlayer : assignment[id.index] with
  | none => rfl
  | some present =>
    rw [Option.any_some]
    dsimp only
    by_cases hsame : present = layer
    · -- the layer is written once more
      have hself : assignment.setIfInBounds id.index (some layer) = assignment := by
        rw [← hsame, ← hlayer, Array.setIfInBounds_def, dif_pos (hsize ▸ hid),
          Array.set_getElem_self]
      rw [if_neg (by simpa using hsame), if_pos hsame, hself]
      rfl
    · simp [hsame, hobject, pure_bind]

theorem assignNameAt_eq (htable : table.IsClosed) (hsize : assignment.size = table.objects.size)
    (line : Nat) (layer : LayerId) (name : String) :
    assignNameAt table line layer assignment name =
      lift (assignName table line layer assignment name) := by
  refine bind_eq_lift fun meaning hmeaning ↦ ?_
  have hwithin := (htable.within.resolve hmeaning).objects
  refine foldlM_eq_lift (P := fun a ↦ a.size = table.objects.size) (fun a id hid ha ↦ ?_) hsize
  exact ⟨assignAt_eq ha line layer (hwithin id hid), fun a' ha' ↦ (size_assign ha').trans ha⟩

theorem assignLayerAt_eq (htable : table.IsClosed) (hsize : assignment.size = table.objects.size)
    (declaration : LayerDeclaration × Nat) :
    assignLayerAt table assignment declaration =
      lift (assignLayer table assignment declaration) := by
  rw [assignLayerAt, assignLayer]
  split
  · rfl
  · refine foldlM_eq_lift (P := fun a ↦ a.size = table.objects.size) (fun a name _ ha ↦ ?_) hsize
    exact ⟨assignNameAt_eq htable ha _ _ name, fun a' ha' ↦ (size_assignName ha').trans ha⟩

/-- **Every object that is given a layer has its place in the table of layers.** -/
theorem buildAt_eq (htable : table.IsClosed) (layers : List LayerDeclaration) :
    buildAt table layers = lift (build table layers) := by
  refine foldlM_eq_lift (P := fun a ↦ a.size = table.objects.size) (fun a layer _ ha ↦ ?_)
    Array.size_replicate
  exact ⟨assignLayerAt_eq htable ha layer, fun a' ha' ↦ (size_assignLayer ha').trans ha⟩

end LayerAssignment

/-! ## Cells of levels -/

namespace Board

/-- Draws the character in a given column of a row; the board has a cell for it. -/
def drawSymbolAt (legend : Legend) (objects : Array Template) (line y : Nat) (board : Board) :
    Char × Nat → Accessing DefinitionError Board
  | (c, x) => do
    let symbol := String.ofList [c]
    let ids ← lift (drawnObjects legend line symbol)
    let cell ← fetch board.cells[board.place ⟨x, y⟩]?
    let cell ← lift (ids.foldlM (drawObject objects line symbol) cell)
    return board.setCell ⟨x, y⟩ cell

/-- Draws the row in a given place of a level that begins on a given line. -/
def drawRowAt (legend : Legend) (objects : Array Template) (line : Nat) (board : Board) :
    String × Nat → Accessing DefinitionError Board
  | (row, y) => row.toList.zipIdx.foldlM (drawSymbolAt legend objects (line + y) y) board

/-- The board of the level drawn in a given place. -/
def ofDrawingAt (legend : Legend) (objects : Array Template) (layerCount : Nat) :
    Drawing × Nat → Accessing DefinitionError Board
  | (drawing, place) => do
    let rows := drawing.rows
    let width := (rows.head?.map String.length).getD 0
    match rows.findIdx? fun row ↦ row.length ≠ width with
    | some y => lift (.error (.nonRectangularLevel (drawing.line + y)))
    | none =>
      let board ← rows.zipIdx.foldlM (drawRowAt legend objects drawing.line)
        (blank place width rows.length layerCount)
      match background? legend objects with
      | none => return board
      | some template => return board.fill template

variable {legend : Legend} {objects : Array Template} {line : Nat} {board board' : Board}

theorem sameShape_drawSymbol {y : Nat} {symbol : Char × Nat}
    (h : drawSymbol legend objects line y board symbol = .ok board') : board.SameShape board' := by
  obtain ⟨ids, -, h⟩ := bind_eq_ok_iff.mp h
  dsimp only at h
  split at h
  · cases h
    exact .refl board
  · obtain ⟨cell, -, h⟩ := bind_eq_ok_iff.mp h
    obtain rfl := pure_eq_ok_iff.mp h
    exact sameShape_setCell board _ cell

theorem drawSymbolAt_eq {y x : Nat} (h : board.contains ⟨x, y⟩ = true) (c : Char) :
    drawSymbolAt legend objects line y board (c, x) =
      lift (drawSymbol legend objects line y board (c, x)) := by
  refine bind_eq_lift fun ids _ ↦ ?_
  have hcell := Array.getElem?_eq_getElem (place_lt_size h)
  dsimp only
  rw [hcell, cell?_of_contains h, hcell, fetch_some, pure_bind]
  exact bind_eq_lift fun cell _ ↦ rfl

theorem drawRowAt_eq {row : String} {y : Nat} (hrow : row.length = board.width)
    (hy : y < board.height) : drawRowAt legend objects line board (row, y) =
      lift (drawRow legend objects line board (row, y)) := by
  refine foldlM_eq_lift (P := board.SameShape) ?_ (.refl board)
  rintro other ⟨c, x⟩ hsymbol hother
  have hx : x < row.toList.length :=
    (List.getElem?_eq_some_iff.mp (List.mem_zipIdx_iff_getElem?.mp hsymbol)).1
  rw [String.length_toList, hrow] at hx
  have hcontains : other.contains ⟨x, y⟩ = true := by
    rw [hother.contains]
    exact contains_iff.mpr ⟨Int.natCast_nonneg x, Int.natCast_nonneg y, Int.ofNat_lt.mpr hx,
      Int.ofNat_lt.mpr hy⟩
  exact ⟨drawSymbolAt_eq hcontains c, fun next hnext ↦ hother.trans (sameShape_drawSymbol hnext)⟩

theorem sameShape_drawRow {row : String × Nat}
    (h : drawRow legend objects line board row = .ok board') : board.SameShape board' :=
  foldlM_ok_induction (P := board.SameShape)
    (fun _ _ _ _ hsymbol hbefore ↦ hbefore.trans (sameShape_drawSymbol hsymbol)) h (.refl board)

/-- **Every symbol of a level has its cell.** -/
theorem ofDrawingAt_eq (legend : Legend) (objects : Array Template) (layerCount : Nat)
    (drawing : Drawing × Nat) : ofDrawingAt legend objects layerCount drawing =
      lift (ofDrawing legend objects layerCount drawing) := by
  obtain ⟨drawing, place⟩ := drawing
  rw [ofDrawingAt, ofDrawing]
  generalize (drawing.rows.head?.map String.length).getD 0 = width
  cases hrows : drawing.rows.findIdx? fun row ↦ row.length ≠ width with
  | some y => rfl
  | none =>
    rw [List.findIdx?_eq_none_iff] at hrows
    have hdraw : drawing.rows.zipIdx.foldlM (drawRowAt legend objects drawing.line)
        (blank place width drawing.rows.length layerCount) =
        lift (drawing.rows.zipIdx.foldlM (drawRow legend objects drawing.line)
          (blank place width drawing.rows.length layerCount)) := by
      refine foldlM_eq_lift
        (P := (blank place width drawing.rows.length layerCount).SameShape) ?_ (.refl _)
      rintro board ⟨row, y⟩ hrow hboard
      have hy := List.mem_zipIdx_iff_getElem?.mp hrow
      have hlength : row.length = width := by
        simpa using hrows row (List.mem_of_getElem? hy)
      refine ⟨drawRowAt_eq (hlength.trans hboard.width.symm) ?_, fun next hnext ↦
        hboard.trans (sameShape_drawRow hnext)⟩
      rw [hboard.height]
      exact (List.getElem?_eq_some_iff.mp hy).1
    dsimp only
    rw [hdraw]
    refine bind_eq_lift fun board _ ↦ ?_
    cases background? legend objects with
    | none => rfl
    | some template => rfl

end Board

end TilePuzzle
