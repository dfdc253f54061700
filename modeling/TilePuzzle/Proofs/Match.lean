import TilePuzzle.Proofs.Row

/-!
# What a match says

A rule cell that matches a board cell binds each of its requirements to an occupant that meets it,
and no occupant of the cell is forbidden. In a row, each rule cell matches the board cell in its
place, and since the places are all different, the board after the rewriting has there what the rule
cell makes of that board cell alone.
-/

namespace TilePuzzle

/-! ## One cell -/

theorem Requirement.isMetBy_of_bind? {requirement : Requirement} {cell : Cell} {binding : Binding}
    (hcell : cell.slots.length ≤ LayerId.bound)
    (h : requirement.bind? cell.occupants = some binding) :
    ∃ occupant, cell.occupant? binding.layer = some occupant ∧
      occupant.object = binding.object ∧ requirement.isMetBy occupant = true := by
  obtain ⟨⟨layer, occupant⟩, hfind, rfl⟩ := Option.map_eq_some_iff.mp h
  have hocc := (Cell.mem_occupants hcell).mp (List.mem_of_find?_eq_some hfind)
  have hmet := List.find?_some hfind
  exact ⟨occupant, hocc, rfl, hmet⟩

namespace RuleCell

variable {pattern : RuleCell} {cell : Cell} {bindings : List Binding}

theorem not_forbids_of_match? (h : pattern.match? cell = some bindings) {exclusion : Exclusion}
    (hexclusion : exclusion ∈ pattern.exclusions) {entry : LayerId × Occupant}
    (hentry : entry ∈ cell.occupants) : exclusion.forbids entry.2 = false := by
  rw [match?] at h
  dsimp only at h
  split at h
  · cases h
  · next hnone =>
    refine eq_false_of_ne_true fun hforbids ↦ hnone ?_
    exact List.any_eq_true.mpr ⟨exclusion, hexclusion,
      List.any_eq_true.mpr ⟨entry, hentry, hforbids⟩⟩

theorem bind?_of_match? (h : pattern.match? cell = some bindings) {requirement : Requirement}
    {binding : Binding} (hmem : (requirement, binding) ∈ pattern.requirements.zip bindings) :
    requirement.bind? cell.occupants = some binding := by
  rw [match?] at h
  dsimp only at h
  split at h
  · cases h
  · generalize pattern.requirements = requirements at h hmem
    induction requirements generalizing bindings with
    | nil => exact absurd hmem List.not_mem_nil
    | cons first rest ih =>
      rw [List.mapM_cons] at h
      obtain ⟨found, hfound, h⟩ := Option.bind_eq_some_iff.mp h
      obtain ⟨others, hothers, h⟩ := Option.bind_eq_some_iff.mp h
      obtain rfl := Option.some.inj h
      rw [List.zip_cons_cons] at hmem
      rcases List.mem_cons.mp hmem with heq | hmem
      · cases heq
        exact hfound
      · exact ih hothers hmem

end RuleCell

/-! ## Place by place -/

section

variable {game : Game} {direction : Direction} {position : Position} {board : Board}
  {pattern : RuleCell} {bindings : List Binding} {cell : Cell} {n : Nat}

theorem exists_match?_of_matchCells {patterns : List RuleCell} {rows : List (List Binding)}
    (h : matchCells board direction patterns position = some rows)
    (hn : (patterns.zip rows)[n]? = some (pattern, bindings)) :
    ∃ cell, board.cell? (position.offset direction n) = some cell ∧
      pattern.match? cell = some bindings := by
  induction patterns generalizing rows position n with
  | nil => cases hn
  | cons first rest ih =>
    obtain ⟨cell, hcell, h⟩ := Option.bind_eq_some_iff.mp h
    obtain ⟨found, hfound, h⟩ := Option.bind_eq_some_iff.mp h
    obtain ⟨others, hothers, h⟩ := Option.bind_eq_some_iff.mp h
    obtain rfl := Option.some.inj h
    cases n with
    | zero =>
      cases hn
      exact ⟨cell, (Position.offset_zero position direction).symm ▸ hcell, hfound⟩
    | succ n =>
      have hrest := ih hothers hn
      rwa [Position.offset_step] at hrest

/-- After a rewriting, each place of the row has what its rule cell makes of the board cell there.
-/
theorem cell?_rewriteCells_of_getElem? {row : List (RuleCell × List Binding)}
    (hn : row[n]? = some (pattern, bindings))
    (hcell : board.cell? (position.offset direction n) = some cell) :
    (rewriteCells game direction row position board).1.cell? (position.offset direction n) =
      some (pattern.rewrite game cell bindings).cell := by
  induction row generalizing position board n with
  | nil => cases hn
  | cons first rest ih =>
    obtain ⟨firstPattern, firstBindings⟩ := first
    rw [rewriteCells]
    cases n with
    | zero =>
      cases hn
      have hrest := cell?_rewriteCells_step game direction rest position
      rw [Int.ofNat_zero, Position.offset_zero] at hcell ⊢
      rw [hcell]
      dsimp only
      split
      · next heq => rw [hrest, hcell, heq]
      · exact (hrest _).trans (Board.cell?_setCell_self (Board.contains_of_cell? hcell) _)
    | succ n =>
      have hne : position.offset direction (n + 1 : Nat) ≠ position := by
        intro heq
        have hzero := Position.offset_inj (heq.trans (Position.offset_zero position direction).symm)
        exact Nat.succ_ne_zero n (Int.ofNat_inj.mp hzero)
      rw [Int.natCast_succ, ← Position.offset_step] at hcell hne ⊢
      cases board.cell? position with
      | none => exact ih hn hcell
      | some there =>
        dsimp only
        split
        · exact ih hn hcell
        · exact ih hn ((Board.cell?_setCell_ne hne _).trans hcell)

/-- If each rule cell leaves the board cell in its place as it is, nothing is done or recorded. -/
theorem rewriteCells_eq_self {row : List (RuleCell × List Binding)}
    (h : ∀ (n : Nat) (pattern : RuleCell) (bindings : List Binding) (cell : Cell),
      row[n]? = some (pattern, bindings) → board.cell? (position.offset direction n) = some cell →
        (pattern.rewrite game cell bindings).cell = cell) :
    rewriteCells game direction row position board = (board, []) := by
  induction row generalizing position with
  | nil => rfl
  | cons first rest ih =>
    obtain ⟨pattern, bindings⟩ := first
    have hrest : rewriteCells game direction rest (position.step direction) board = (board, []) :=
      ih fun n pattern bindings cell hn hcell ↦
        h (n + 1) pattern bindings cell hn (Position.offset_step position direction n ▸ hcell)
    rw [rewriteCells]
    cases hcell : board.cell? position with
    | none => exact hrest
    | some cell =>
      have hself := h 0 pattern bindings cell rfl
        ((Position.offset_zero position direction).symm ▸ hcell)
      dsimp only
      rw [if_pos hself]
      exact hrest

end

end TilePuzzle
