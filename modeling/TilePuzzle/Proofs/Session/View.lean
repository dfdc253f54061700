import TilePuzzle.Proofs.Balance
import TilePuzzle.Proofs.Definition.Namespace
import TilePuzzle.Proofs.Definition.Turn
import TilePuzzle.Proofs.Session.Consistent
import TilePuzzle.Session.View

/-!
# Views tell everything

A host sees neither layers nor numbers of objects. It could still reconstruct both: in a game that
was defined no two objects have one name, and an object stands on its own layer only, so the names
in a cell tell the whole cell. In the view of a turn, the word for the kind of a change and the
intent that goes with it tell the kind.

## What is left out

Objects without a name are left out of a view, which would make different boards look the same. So
the other half of the argument is that there are none: all objects of a board that fits the game are
known to it, and so are all objects in the record of a turn (`knowsAll_runTurn`).
-/

namespace TilePuzzle

/-! ## Lists of which nothing is left out -/

section Lists

variable {α β : Type} {xs ys : List α}

theorem map_some_filterMap {f : α → Option β} (h : ∀ x ∈ xs, ∃ y, f x = some y) :
    (xs.filterMap f).map some = xs.map f := by
  induction xs with
  | nil => rfl
  | cons x xs ih =>
    obtain ⟨y, hy⟩ := h x List.mem_cons_self
    have hrest := ih fun x' hx' ↦ h x' (List.mem_cons_of_mem x hx')
    simp [hy, hrest]

theorem eq_of_map_eq {f : α → β} (hinj : ∀ x ∈ xs, ∀ y ∈ ys, f x = f y → x = y)
    (h : xs.map f = ys.map f) : xs = ys := by
  induction xs generalizing ys with
  | nil => exact (List.map_eq_nil_iff.mp h.symm).symm
  | cons x xs ih =>
    rcases ys with _ | ⟨y, ys⟩
    · exact absurd h (List.cons_ne_nil _ _)
    · rw [List.map_cons, List.map_cons, List.cons.injEq] at h
      obtain ⟨hhead, htail⟩ := h
      rw [hinj x List.mem_cons_self y List.mem_cons_self hhead]
      congr 1
      apply ih _ htail
      intro x' hx' y' hy'
      exact hinj x' (List.mem_cons_of_mem x hx') y' (List.mem_cons_of_mem y hy')

theorem eq_of_filterMap_eq {f : α → Option β} (hxs : ∀ x ∈ xs, ∃ y, f x = some y)
    (hys : ∀ y ∈ ys, ∃ z, f y = some z) (hinj : ∀ x ∈ xs, ∀ y ∈ ys, f x = f y → x = y)
    (h : xs.filterMap f = ys.filterMap f) : xs = ys := by
  apply eq_of_map_eq hinj
  rw [← map_some_filterMap hxs, ← map_some_filterMap hys, h]

end Lists

/-! ## Names of objects -/

/-- An object of the game. -/
def Game.Knows (game : Game) (object : ObjectId) : Prop :=
  ∃ template, game.template? object = some template

variable {game : Game} {object object' : ObjectId}

theorem Game.Knows.exists_identifier? (h : game.Knows object) :
    ∃ name, game.identifier? object = some name := by
  obtain ⟨template, htemplate⟩ := h
  exact ⟨template.identifier, by rw [Game.identifier?, htemplate, Option.map_some]⟩

theorem Game.IsDefined.eq_of_identifier? (h : game.IsDefined) (hknown : game.Knows object)
    (hsame : game.identifier? object = game.identifier? object') : object = object' := by
  obtain ⟨template, htemplate⟩ := hknown
  rw [Game.identifier?, Game.identifier?, htemplate, Option.map_some] at hsame
  obtain ⟨template', htemplate', hname⟩ := Option.map_eq_some_iff.mp hsame.symm
  apply h.eq_of_sameWord htemplate htemplate'
  rw [Text.sameWord_iff, hname]

/-! ## Cells -/

namespace Cell

variable {cell other : Cell} {layer : LayerId}

theorem Fits.object?_eq_some_iff (h : cell.Fits game) (hgame : game.IsLayered) :
    cell.object? layer = some object ↔
      object ∈ cell.objects ∧ game.layer? object = some layer := by
  rw [objects, List.mem_map]
  constructor
  · intro hobject
    obtain ⟨occupant, hoccupant, rfl⟩ := Option.map_eq_some_iff.mp hobject
    have hlisted := (mem_occupants (h.length_le hgame)).mpr hoccupant
    exact ⟨⟨(layer, occupant), hlisted, rfl⟩, h.layer?_eq layer occupant hoccupant⟩
  · rintro ⟨⟨⟨layer', occupant⟩, hlisted, rfl⟩, hlayer⟩
    have hoccupant := (mem_occupants (h.length_le hgame)).mp hlisted
    have hlayer' := h.layer?_eq layer' occupant hoccupant
    rw [hlayer, Option.some.injEq] at hlayer'
    rw [object?, hlayer', hoccupant, Option.map_some]

theorem Fits.knows (h : cell.Fits game) (hgame : game.IsLayered) (hobject : object ∈ cell.objects) :
    game.Knows object := by
  obtain ⟨⟨layer, occupant⟩, hlisted, rfl⟩ := List.mem_map.mp hobject
  have hoccupant := (mem_occupants (h.length_le hgame)).mp hlisted
  obtain ⟨template, htemplate, -⟩ :=
    Game.template?_of_layer? (h.layer?_eq layer occupant hoccupant)
  exact ⟨template, htemplate⟩

/-- The objects of a cell tell the cell, as every object has one layer. -/
theorem Fits.eq_of_objects (h : cell.Fits game) (h' : other.Fits game) (hgame : game.IsLayered)
    (hstill : cell.IsStill) (hstill' : other.IsStill) (hobjects : cell.objects = other.objects) :
    cell = other := by
  have hsettle : cell.settle = other.settle := by
    apply settle_eq_of_object? (h.length_slots.trans h'.length_slots.symm) (h'.length_le hgame)
    -- whether an object stands on a layer is a matter of the objects in the cell
    intro layer
    apply Option.ext
    intro object
    rw [h.object?_eq_some_iff hgame, h'.object?_eq_some_iff hgame, hobjects]
  rwa [settle_eq_self hstill, settle_eq_self hstill'] at hsettle

theorem Fits.map_some_namesIn (h : cell.Fits game) (hgame : game.IsLayered) :
    (Snapshot.namesIn game cell).map some = cell.objects.map game.identifier? :=
  map_some_filterMap fun _ hobject ↦ (h.knows hgame hobject).exists_identifier?

/-- The names in a cell tell the cell. -/
theorem Fits.eq_of_namesIn (h : cell.Fits game) (h' : other.Fits game) (hgame : game.IsDefined)
    (hstill : cell.IsStill) (hstill' : other.IsStill)
    (hnames : Snapshot.namesIn game cell = Snapshot.namesIn game other) : cell = other := by
  apply h.eq_of_objects h' hgame.isLayered hstill hstill'
  apply eq_of_filterMap_eq _ _ _ hnames
  · intro object hobject
    exact (h.knows hgame.isLayered hobject).exists_identifier?
  · intro object hobject
    exact (h'.knows hgame.isLayered hobject).exists_identifier?
  · intro object hobject object' _
    exact hgame.eq_of_identifier? (h.knows hgame.isLayered hobject)

end Cell

/-! ## Snapshots -/

namespace Snapshot

variable {board other : Board}

@[simp] theorem map_position_ofBoard (game : Game) (board : Board) :
    (ofBoard game board).cells.map CellView.position = board.positions := by
  rw [ofBoard, List.map_map, Board.placedCells]
  exact List.map_fst_zip (Nat.le_of_eq board.length_positions)

@[simp] theorem map_objects_ofBoard (game : Game) (board : Board) :
    (ofBoard game board).cells.map CellView.objects = board.cells.toList.map (namesIn game) := by
  calc (ofBoard game board).cells.map CellView.objects
      = (board.placedCells.map Prod.snd).map (namesIn game) := by
        simp [ofBoard]
    _ = board.cells.toList.map (namesIn game) := by
        rw [Board.placedCells, List.map_snd_zip (Nat.le_of_eq board.length_positions.symm)]

theorem map_some_objects_ofBoard (hgame : game.IsLayered) (h : board.Fits game) :
    (ofBoard game board).cells.map (fun view ↦ view.objects.map some) =
      board.cells.toList.map fun cell ↦ cell.objects.map game.identifier? := by
  calc (ofBoard game board).cells.map (fun view ↦ view.objects.map some)
      = ((ofBoard game board).cells.map CellView.objects).map (List.map some) := by
        rw [List.map_map]
        rfl
    _ = board.cells.toList.map fun cell ↦ cell.objects.map game.identifier? := by
        rw [map_objects_ofBoard, List.map_map]
        apply List.map_congr_left
        intro cell hcell
        exact (h cell (Array.mem_toList_iff.mp hcell)).map_some_namesIn hgame

/-- **A snapshot tells the board**, if the board fits the game and has no intents. -/
theorem eq_of_ofBoard (hgame : game.IsDefined) (h : board.Fits game) (hstill : board.IsStill)
    (h' : other.Fits game) (hstill' : other.IsStill)
    (hsame : ofBoard game board = ofBoard game other) : board = other := by
  apply Board.eq_of_cells
  -- all but the cells is shown as it is
  · exact congrArg index hsame
  · exact congrArg width hsame
  · exact congrArg height hsame
  · have hnames := congrArg (fun snapshot ↦ snapshot.cells.map CellView.objects) hsame
    rw [map_objects_ofBoard, map_objects_ofBoard] at hnames
    apply Array.toList_inj.mp
    apply eq_of_map_eq _ hnames
    intro cell hcell cell' hcell'
    rw [Array.mem_toList_iff] at hcell hcell'
    exact (h cell hcell).eq_of_namesIn (h' cell' hcell') hgame (hstill cell hcell)
      (hstill' cell' hcell')

end Snapshot

/-! ## Turns -/

theorem ChangeKind.eq_of_word {kind kind' : ChangeKind} (hword : kind.word = kind'.word)
    (hmovement : kind.movement? = kind'.movement?) : kind = kind' := by
  cases kind <;> cases kind'
  case move.move movement movement' => rw [Option.some.inj hmovement]
  all_goals first | rfl | exact absurd hword (by decide) | cases hmovement

/-- All objects that some subturns change are objects of the game. -/
def Game.KnowsAll (game : Game) (subturns : List Subturn) : Prop :=
  ∀ subturn ∈ subturns, ∀ firing ∈ subturn.firings, ∀ cell ∈ firing.cells,
    ∀ change ∈ cell.changes, game.Knows change.object

namespace Game

variable {change change' : Change}

theorem Knows.exists_viewChange? (h : game.Knows change.object) :
    ∃ view, game.viewChange? change = some view := by
  obtain ⟨name, hname⟩ := h.exists_identifier?
  exact ⟨_, by rw [viewChange?, hname, Option.map_some]⟩

theorem map_some_changes_viewFiring {firing : Firing}
    (h : ∀ cell ∈ firing.cells, ∀ change ∈ cell.changes, game.Knows change.object) :
    (game.viewFiring firing).cells.map (fun view ↦ view.changes.map some) =
      firing.cells.map fun cell ↦ cell.changes.map game.viewChange? := by
  rw [viewFiring, List.map_map]
  apply List.map_congr_left
  intro cell hcell
  apply map_some_filterMap
  intro change hchange
  exact (h cell hcell change hchange).exists_viewChange?

namespace IsDefined

variable (h : game.IsDefined)

include h

theorem eq_of_viewChange? (hknown : game.Knows change.object)
    (hsame : game.viewChange? change = game.viewChange? change') : change = change' := by
  obtain ⟨name, hname⟩ := hknown.exists_identifier?
  rw [viewChange?, viewChange?, hname, Option.map_some] at hsame
  obtain ⟨name', hname', hview⟩ := Option.map_eq_some_iff.mp hsame.symm
  obtain ⟨rfl, hword, hmovement⟩ := ChangeView.mk.inj hview
  have hobject := h.eq_of_identifier? hknown (hname.trans hname'.symm)
  exact congrArg₂ Change.mk hobject (ChangeKind.eq_of_word hword.symm hmovement.symm)

theorem eq_of_viewFiring {firing firing' : Firing}
    (hknown : ∀ cell ∈ firing.cells, ∀ change ∈ cell.changes, game.Knows change.object)
    (hknown' : ∀ cell ∈ firing'.cells, ∀ change ∈ cell.changes, game.Knows change.object)
    (hsame : game.viewFiring firing = game.viewFiring firing') : firing = firing' := by
  obtain ⟨hline, hdirection, horigin, hviews⟩ := FiringView.mk.inj hsame
  have hcells : firing.cells = firing'.cells := by
    apply eq_of_map_eq _ hviews
    intro cell hcell cell' hcell' hview
    obtain ⟨hposition, hviewed⟩ := ChangedCellView.mk.inj hview
    have hchanges : cell.changes = cell'.changes := by
      apply eq_of_filterMap_eq _ _ _ hviewed
      · intro change hchange
        exact (hknown cell hcell change hchange).exists_viewChange?
      · intro change hchange
        exact (hknown' cell' hcell' change hchange).exists_viewChange?
      · intro change hchange change' _
        exact h.eq_of_viewChange? (hknown cell hcell change hchange)
    exact congrArg₂ CellChange.mk hposition hchanges
  exact (Firing.mk.injEq ..).mpr ⟨hline, hdirection, horigin, hcells⟩

/-- **The view of a turn tells the turn**, if all its objects are known. -/
theorem eq_of_viewTurn {subturns others : List Subturn} (hknown : game.KnowsAll subturns)
    (hknown' : game.KnowsAll others) (hsame : game.viewTurn subturns = game.viewTurn others) :
    subturns = others := by
  apply eq_of_map_eq _ hsame
  intro subturn hsubturn other hother hview
  have hfirings : subturn.firings = other.firings := by
    apply eq_of_map_eq _ (SubturnView.mk.inj hview)
    intro firing hfiring firing' hfiring'
    exact h.eq_of_viewFiring (hknown subturn hsubturn firing hfiring)
      (hknown' other hother firing' hfiring')
  exact congrArg Subturn.mk hfirings

end IsDefined

/-- The record of a turn speaks of objects of the game. -/
theorem knowsAll_runTurn (hgame : game.IsLayered) {board : Board} (h : board.Fits game)
    (maxRewrites : Nat) (input : Option Movement) :
    game.KnowsAll (game.runTurn maxRewrites input board).record.subturns := by
  intro subturn hsubturn firing hfiring cell hcell change hchange
  exact (Board.bears_runTurn hgame h maxRewrites input subturn hsubturn firing hfiring cell
    hcell).2 change hchange

/-- **Views lose nothing.** In a game that was defined, two boards that fit it and have no intents
have the same snapshot just if they are the same. A snapshot lists every position of its board once,
row by row, and no object is left out. Two turns of which all objects are known have the same view
just if they are the same, and no change is left out; the objects in the record of a turn are
known. -/
theorem IsDefined.views_lose_nothing (h : game.IsDefined) :
    (∀ board other : Board, board.Fits game → board.IsStill → other.Fits game → other.IsStill →
      (Snapshot.ofBoard game board = Snapshot.ofBoard game other ↔ board = other)) ∧
    (∀ board : Board,
      ((Snapshot.ofBoard game board).cells.map CellView.position).Pairwise Position.Precedes ∧
      ∀ p, p ∈ (Snapshot.ofBoard game board).cells.map CellView.position ↔
        0 ≤ p.x ∧ 0 ≤ p.y ∧ p.x < board.width ∧ p.y < board.height) ∧
    (∀ board : Board, board.Fits game →
      (Snapshot.ofBoard game board).cells.map (fun view ↦ view.objects.map some) =
        board.cells.toList.map fun cell ↦ cell.objects.map game.identifier?) ∧
    (∀ subturns others, game.KnowsAll subturns → game.KnowsAll others →
      (game.viewTurn subturns = game.viewTurn others ↔ subturns = others)) ∧
    (∀ firing : Firing,
      (∀ cell ∈ firing.cells, ∀ change ∈ cell.changes, game.Knows change.object) →
        (game.viewFiring firing).cells.map (fun view ↦ view.changes.map some) =
          firing.cells.map fun cell ↦ cell.changes.map game.viewChange?) ∧
    ∀ board : Board, board.Fits game → ∀ maxRewrites input,
      game.KnowsAll (game.runTurn maxRewrites input board).record.subturns := by
  refine ⟨?_, ?_, ?_, ?_, ?_, ?_⟩
  · intro board other hboard hstill hother hstill'
    constructor
    · exact Snapshot.eq_of_ofBoard h hboard hstill hother hstill'
    · exact congrArg (Snapshot.ofBoard game)
  · intro board
    rw [Snapshot.map_position_ofBoard]
    exact ⟨board.pairwise_positions, fun _ ↦ Board.mem_positions.trans Board.contains_iff⟩
  · intro board hboard
    exact Snapshot.map_some_objects_ofBoard h.isLayered hboard
  · intro subturns others hknown hknown'
    constructor
    · exact h.eq_of_viewTurn hknown hknown'
    · exact congrArg game.viewTurn
  · intro firing hknown
    exact map_some_changes_viewFiring hknown
  · intro board hboard maxRewrites input
    exact knowsAll_runTurn h.isLayered hboard maxRewrites input

/-- In the corridor, the step to the right shows in the snapshot and in the view of the turn. -/
theorem views_lose_nothing_corridor : ∃ (game : Game) (board : Board),
    game.IsDefined ∧ board.Fits game ∧ board.IsStill ∧
      let turn := game.runTurn 1 (some (.toward .right)) board
      Snapshot.ofBoard game turn.board ≠ Snapshot.ofBoard game board ∧
        game.viewTurn turn.record.subturns ≠ game.viewTurn [] := by
  have hread : (Session.readGame corridor).yields .empty (fun game ↦
      (game.level? 0).any fun board ↦
        let turn := game.runTurn 1 (some (.toward .right)) board
        turn.board != board && turn.record.subturns != []) = true := by
    decide +kernel
  obtain ⟨game, board, hdefined, hboard, hstill, hturn⟩ := Session.exists_of_yields hread
  obtain ⟨hmoved, hrecorded⟩ := Bool.and_eq_true_iff.mp hturn
  rw [bne_iff_ne] at hmoved hrecorded
  obtain ⟨hsnapshots, -, -, hviews, -, hknown⟩ := hdefined.views_lose_nothing
  refine ⟨game, board, hdefined, hboard, hstill, ?_, ?_⟩
  · intro hsame
    refine hmoved ((hsnapshots _ board ?_ ?_ hboard hstill).mp hsame)
    · exact fits_runTurn hdefined.isLayered hboard
    · exact isStill_runTurn hdefined.isLayered hboard
  · intro hsame
    exact hrecorded ((hviews _ [] (hknown board hboard 1 _) nofun).mp hsame)

end Game

end TilePuzzle
