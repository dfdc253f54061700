import TilePuzzle.Proofs.Rewrite

/-!
# What a rewriting changes

The cells of a rule lie in a row of positions that are all different, so no cell of the board is
rewritten twice. Hence the record of a rewriting is exact: it lists those positions of the row, in
the order of the row, where the board is another one afterwards, each with at least one change, and
off the row nothing is touched. In particular a rewriting records nothing just when it leaves the
board as it is.

## The induction

It goes along the row. The first cell is written before the others, and they leave it as it is, as
it does not occur among them (`cell?_rewriteCells_step`).
-/

namespace TilePuzzle

/-! ## Rows of positions -/

namespace Position

/-- So many positions in a row. -/
def row (origin : Position) (direction : Direction) (length : Nat) : List Position :=
  (List.range length).map fun (n : Nat) ↦ origin.offset direction n

variable {origin : Position} {direction : Direction}

theorem offset_inj {m n : Int} (h : origin.offset direction m = origin.offset direction n) :
    m = n := by
  rw [offset, offset, Position.mk.injEq] at h
  obtain ⟨hx, hy⟩ := h
  cases direction with
  | up => simp only [Direction.dy] at hy; omega
  | down => simp only [Direction.dy] at hy; omega
  | left => simp only [Direction.dx] at hx; omega
  | right => simp only [Direction.dx] at hx; omega

@[simp] theorem row_succ (origin : Position) (direction : Direction) (length : Nat) :
    origin.row direction (length + 1) = origin :: (origin.step direction).row direction length := by
  rw [row, row, List.range_succ_eq_map, List.map_cons, List.map_map]
  congr 1
  · exact offset_zero origin direction
  · refine List.map_congr_left fun n _ ↦ ?_
    rw [offset_step]
    rfl

theorem nodup_row (origin : Position) (direction : Direction) (length : Nat) :
    (origin.row direction length).Nodup := by
  refine List.Pairwise.map _ (fun m n hne h ↦ hne ?_) List.nodup_range
  exact Int.ofNat_inj.mp (offset_inj h)

theorem not_mem_row_step (origin : Position) (direction : Direction) (length : Nat) :
    origin ∉ (origin.step direction).row direction length := by
  have h := nodup_row origin direction (length + 1)
  rw [row_succ] at h
  exact (List.nodup_cons.mp h).1

end Position

/-! ## Rewriting a row of cells -/

section RewriteCells

variable {game : Game} {direction : Direction} {row : List (RuleCell × List Binding)}
  {position : Position} {board : Board}

theorem cell?_rewriteCells_of_not_mem {p : Position}
    (h : p ∉ position.row direction row.length) :
    (rewriteCells game direction row position board).1.cell? p = board.cell? p := by
  induction row generalizing position board with
  | nil => rfl
  | cons first rest ih =>
    obtain ⟨pattern, bindings⟩ := first
    rw [List.length_cons, Position.row_succ, List.mem_cons, not_or] at h
    obtain ⟨hne, hrest⟩ := h
    rw [rewriteCells]
    cases board.cell? position with
    | none => exact ih hrest
    | some cell =>
      dsimp only
      split
      · exact ih hrest
      · exact (ih hrest).trans (Board.cell?_setCell_ne hne _)

/-- The later cells of a row leave the first one as it is. -/
theorem cell?_rewriteCells_step (game : Game) (direction : Direction)
    (row : List (RuleCell × List Binding)) (position : Position) (board : Board) :
    (rewriteCells game direction row (position.step direction) board).1.cell? position =
      board.cell? position :=
  cell?_rewriteCells_of_not_mem (Position.not_mem_row_step position direction row.length)

/-- **The record of a rewriting is exact**: it lists the positions of the row where the board is
another one afterwards. -/
theorem map_position_rewriteCells (game : Game) (direction : Direction)
    (row : List (RuleCell × List Binding)) (position : Position) (board : Board) :
    (rewriteCells game direction row position board).2.map CellChange.position =
      (position.row direction row.length).filter fun p ↦
        board.cell? p ≠ (rewriteCells game direction row position board).1.cell? p := by
  induction row generalizing position board with
  | nil => rfl
  | cons first rest ih =>
    obtain ⟨pattern, bindings⟩ := first
    have hfirst := cell?_rewriteCells_step game direction rest position
    rw [List.length_cons, Position.row_succ, rewriteCells]
    cases hcell : board.cell? position with
    | none =>
      rw [List.filter_cons_of_neg (by rw [hfirst]; simp)]
      exact ih _ _
    | some cell =>
      dsimp only
      split
      · rw [List.filter_cons_of_neg (by rw [hfirst]; simp)]
        exact ih _ _
      · next hchanged =>
        have hthere := Board.cell?_setCell_self (Board.contains_of_cell? hcell)
          (pattern.rewrite game cell bindings).cell
        rw [List.filter_cons_of_pos
          (by rw [hfirst, hthere, hcell]; simpa using fun h ↦ hchanged h.symm), List.map_cons, ih]
        refine congrArg (position :: ·) (List.filter_congr fun p hp ↦ ?_)
        -- off its own position, the first rewriting is not seen
        have hne : p ≠ position := fun heq ↦
          Position.not_mem_row_step position direction rest.length (heq ▸ hp)
        rw [Board.cell?_setCell_ne hne]

theorem changes_ne_nil_of_mem_rewriteCells (hgame : game.IsLayered) (hboard : board.Fits game)
    {change : CellChange} (h : change ∈ (rewriteCells game direction row position board).2) :
    change.changes ≠ [] := by
  induction row generalizing position board with
  | nil => exact absurd h List.not_mem_nil
  | cons first rest ih =>
    obtain ⟨pattern, bindings⟩ := first
    rw [rewriteCells] at h
    cases hcell : board.cell? position with
    | none =>
      rw [hcell] at h
      exact ih hboard h
    | some cell =>
      have htells := pattern.tells_rewrite hgame (hboard.cell? hcell) bindings
      rw [hcell] at h
      dsimp only at h
      split at h
      · exact ih hboard h
      · next hchanged =>
        rcases List.mem_cons.mp h with rfl | h
        · intro (hnil : (pattern.rewrite game cell bindings).changes = [])
          have hreplay := htells.replayAll?_eq
          rw [hnil] at hreplay
          exact hchanged (Option.some.inj hreplay).symm
        · exact ih (hboard.setCell position htells.fits) h

end RewriteCells

/-! ## Rewriting by a rule -/

theorem length_of_matchCells {board : Board} {direction : Direction} {patterns : List RuleCell}
    {position : Position} {bindings : List (List Binding)}
    (h : matchCells board direction patterns position = some bindings) :
    bindings.length = patterns.length := by
  induction patterns generalizing position bindings with
  | nil =>
    obtain rfl := Option.some.inj h
    rfl
  | cons pattern patterns ih =>
    obtain ⟨cell, -, h⟩ := Option.bind_eq_some_iff.mp h
    obtain ⟨first, -, h⟩ := Option.bind_eq_some_iff.mp h
    obtain ⟨rest, hrest, h⟩ := Option.bind_eq_some_iff.mp h
    obtain rfl := Option.some.inj h
    simp [ih hrest]

namespace Rule

variable {game : Game} {rule : Rule} {board : Board} {origin : Position}
  {bindings : List (List Binding)}

/-- The positions of the cells of a rule that is laid from an origin. -/
def positions (rule : Rule) (origin : Position) : List Position :=
  origin.row rule.direction rule.cells.length

theorem length_zip_of_match? (h : rule.match? board origin = some bindings) :
    (rule.cells.zip bindings).length = rule.cells.length := by
  simp [length_of_matchCells h]

@[simp] theorem map_position_labelTransfers (cells : List CellChange) :
    (labelTransfers cells).map CellChange.position = cells.map CellChange.position := by
  rw [labelTransfers, List.map_map]
  rfl

theorem map_position_rewrite (game : Game) (hmatch : rule.match? board origin = some bindings) :
    (rule.rewrite game board origin bindings).2.map CellChange.position =
      (rule.positions origin).filter fun p ↦
        board.cell? p ≠ (rule.rewrite game board origin bindings).1.cell? p := by
  have hrow := map_position_rewriteCells game rule.direction (rule.cells.zip bindings) origin board
  rw [length_zip_of_match? hmatch] at hrow
  exact (map_position_labelTransfers _).trans hrow

theorem cell?_rewrite_of_not_mem (hmatch : rule.match? board origin = some bindings)
    {p : Position} (h : p ∉ rule.positions origin) :
    (rule.rewrite game board origin bindings).1.cell? p = board.cell? p := by
  rw [positions, ← length_zip_of_match? hmatch] at h
  exact cell?_rewriteCells_of_not_mem h

theorem mem_map_position_rewrite (hmatch : rule.match? board origin = some bindings)
    {p : Position} :
    p ∈ (rule.rewrite game board origin bindings).2.map CellChange.position ↔
      board.cell? p ≠ (rule.rewrite game board origin bindings).1.cell? p := by
  rw [map_position_rewrite game hmatch, List.mem_filter, decide_eq_true_eq]
  refine ⟨And.right, fun hne ↦ ⟨?_, hne⟩⟩
  by_cases hp : p ∈ rule.positions origin
  · exact hp
  · exact absurd (cell?_rewrite_of_not_mem hmatch hp).symm hne

theorem changes_ne_nil_of_mem_rewrite (hgame : game.IsLayered) (hboard : board.Fits game)
    {change : CellChange} (h : change ∈ (rule.rewrite game board origin bindings).2) :
    change.changes ≠ [] := by
  obtain ⟨before, hbefore, rfl⟩ := List.mem_map.mp h
  have hne := changes_ne_nil_of_mem_rewriteCells hgame hboard hbefore
  simpa using hne

/-- **A rewriting records nothing just when it leaves the board as it is.** -/
theorem rewrite_eq_self_iff (hgame : game.IsLayered) (hboard : board.Fits game)
    (hmatch : rule.match? board origin = some bindings) :
    (rule.rewrite game board origin bindings).1 = board ↔
      (rule.rewrite game board origin bindings).2 = [] := by
  refine ⟨fun heq ↦ ?_, rule.rewrite_eq_self hgame hboard origin bindings⟩
  have hpositions := map_position_rewrite game hmatch
  rw [heq, List.filter_eq_nil_iff.mpr fun p _ ↦ by simp] at hpositions
  exact List.map_eq_nil_iff.mp hpositions

end Rule

end TilePuzzle
