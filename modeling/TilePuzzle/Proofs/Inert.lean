import TilePuzzle.Proofs.Definition.Turn
import TilePuzzle.Proofs.Layer
import TilePuzzle.Proofs.Search

/-!
# Layers that no rule mentions

Objects of a layer may be named in a level and still be named in no rule: scenery, or what marks the
targets of a win condition. Such a layer is *inert*. Matching passes over it, whatever stands there;
every edit is of another layer, so it can be made before the layer is exchanged as well as
afterwards; and a cell is changed just when it is changed with the layer exchanged. Hence a turn
commutes with grafting the layer: it does the same whatever the layer holds, and leaves the layer as
it is.

## One board and its graft

Two boards that agree off the layer would have to be followed side by side. Instead one board is
followed, and at every level of the engine, from the slot of a cell to the turn, the operation is
shown to commute with the exchange of the layer. The claim about two boards is the last step.

## Intents

The intents that an input gives to objects of the layer go the way of the layer itself. They are
exchanged with it, no rule asks for them, and they are gone when the turn is over.
-/

namespace TilePuzzle

/-! ## Rules that leave a layer alone -/

/-- No member of the set is an object of the layer. -/
def ObjectSet.Avoids (game : Game) (layer : LayerId) (set : ObjectSet) : Prop :=
  ∀ id ∈ set.ids, game.layer? id ≠ some layer

/-- No object of the layer is asked for, forbidden, cleared or spawned. -/
structure RuleCell.Avoids (game : Game) (layer : LayerId) (cell : RuleCell) : Prop where
  requirements : ∀ requirement ∈ cell.requirements, requirement.objects.Avoids game layer
  exclusions : ∀ exclusion ∈ cell.exclusions, exclusion.objects.Avoids game layer
  clears : ∀ set ∈ cell.clears, set.Avoids game layer
  spawns : ∀ spawn ∈ cell.spawns, game.layer? spawn.object ≠ some layer

/-- No cell of the rule mentions an object of the layer. -/
def Rule.Avoids (game : Game) (layer : LayerId) (rule : Rule) : Prop :=
  ∀ cell ∈ rule.cells, cell.Avoids game layer

/-- No rule of the game mentions an object of the layer. -/
def Game.IsInert (game : Game) (layer : LayerId) : Prop :=
  ∀ group ∈ game.groups, ∀ rule ∈ group.rules, rule.Avoids game layer

section Decidable

variable (game : Game) (layer : LayerId)

instance (set : ObjectSet) : Decidable (set.Avoids game layer) :=
  inferInstanceAs (Decidable (∀ id ∈ set.ids, game.layer? id ≠ some layer))

instance (cell : RuleCell) : Decidable (cell.Avoids game layer) :=
  decidable_of_iff
    ((∀ requirement ∈ cell.requirements, requirement.objects.Avoids game layer) ∧
      (∀ exclusion ∈ cell.exclusions, exclusion.objects.Avoids game layer) ∧
      (∀ set ∈ cell.clears, set.Avoids game layer) ∧
      ∀ spawn ∈ cell.spawns, game.layer? spawn.object ≠ some layer)
    ⟨fun h ↦ ⟨h.1, h.2.1, h.2.2.1, h.2.2.2⟩,
      fun h ↦ ⟨h.requirements, h.exclusions, h.clears, h.spawns⟩⟩

instance (rule : Rule) : Decidable (rule.Avoids game layer) :=
  inferInstanceAs (Decidable (∀ cell ∈ rule.cells, cell.Avoids game layer))

instance : Decidable (game.IsInert layer) :=
  inferInstanceAs (Decidable (∀ group ∈ game.groups, ∀ rule ∈ group.rules, rule.Avoids game layer))

end Decidable

variable {game : Game} {layer : LayerId} {slot : Option Occupant}

theorem ObjectSet.Avoids.contains_eq_false {set : ObjectSet} (h : set.Avoids game layer)
    {id : ObjectId} (hid : game.layer? id = some layer) : set.contains id = false :=
  eq_false_of_ne_true fun hcontains ↦ h id (List.contains_iff_mem.mp hcontains) hid

/-! ## Matching -/

section Matching

variable {cell : Cell} {pattern : RuleCell} {requirement : Requirement}

theorem Requirement.bind?_setSlot (h : requirement.objects.Avoids game layer)
    (hgame : game.IsLayered) (hcell : cell.Fits game) (hslot : game.Admits layer slot) :
    requirement.bind? (cell.setSlot layer slot).occupants = requirement.bind? cell.occupants := by
  have hfilter := hcell.filter_occupants_setSlot hgame hslot (p := requirement.isMetBy)
    fun occupant hoccupant ↦ by rw [isMetBy, h.contains_eq_false hoccupant, Bool.false_and]
  rw [bind?, bind?, ← List.head?_filter, ← List.head?_filter]
  exact congrArg (fun found ↦ (List.head? found).map _) hfilter

theorem Requirement.layer_ne_of_bind? (h : requirement.objects.Avoids game layer)
    (hgame : game.IsLayered) (hcell : cell.Fits game) {binding : Binding}
    (hbind : requirement.bind? cell.occupants = some binding) : binding.layer ≠ layer := by
  obtain ⟨⟨other, occupant⟩, hfind, rfl⟩ := Option.map_eq_some_iff.mp hbind
  have hocc := (Cell.mem_occupants (hcell.length_le hgame)).mp (List.mem_of_find?_eq_some hfind)
  intro (heq : other = layer)
  have hmet := List.find?_some hfind
  simp [isMetBy, h.contains_eq_false (heq ▸ hcell.layer?_eq other occupant hocc)] at hmet

theorem Exclusion.any_forbids_setSlot {exclusion : Exclusion}
    (h : exclusion.objects.Avoids game layer) (hgame : game.IsLayered) (hcell : cell.Fits game)
    (hslot : game.Admits layer slot) :
    (cell.setSlot layer slot).occupants.any (fun x ↦ exclusion.forbids x.2) =
      cell.occupants.any fun x ↦ exclusion.forbids x.2 := by
  have hfilter := hcell.filter_occupants_setSlot hgame hslot (p := exclusion.forbids)
    fun occupant hoccupant ↦ by rw [forbids, h.contains_eq_false hoccupant, Bool.false_and]
  rw [← List.isSome_find?, ← List.isSome_find?, ← List.head?_filter, ← List.head?_filter, hfilter]

theorem RuleCell.mapM_bind?_setSlot {requirements : List Requirement}
    (h : ∀ requirement ∈ requirements, requirement.objects.Avoids game layer)
    (hgame : game.IsLayered) (hcell : cell.Fits game) (hslot : game.Admits layer slot) :
    requirements.mapM (fun requirement ↦
        requirement.bind? (cell.setSlot layer slot).occupants) =
      requirements.mapM fun requirement ↦ requirement.bind? cell.occupants := by
  induction requirements with
  | nil => rfl
  | cons first rest ih =>
    obtain ⟨hfirst, hrest⟩ := List.forall_mem_cons.mp h
    simp [first.bind?_setSlot hfirst hgame hcell hslot, ih hrest]

/-- **Matching a cell passes over a layer** whose objects the pattern does not mention. -/
theorem RuleCell.match?_setSlot (h : pattern.Avoids game layer) (hgame : game.IsLayered)
    (hcell : cell.Fits game) (hslot : game.Admits layer slot) :
    pattern.match? (cell.setSlot layer slot) = pattern.match? cell := by
  have hexclusions : (pattern.exclusions.any fun exclusion ↦
        (cell.setSlot layer slot).occupants.any fun x ↦ exclusion.forbids x.2) =
      pattern.exclusions.any fun exclusion ↦
        cell.occupants.any fun x ↦ exclusion.forbids x.2 := by
    rw [Bool.eq_iff_iff, List.any_eq_true, List.any_eq_true]
    refine exists_congr fun exclusion ↦ and_congr_right fun hexclusion ↦ ?_
    rw [exclusion.any_forbids_setSlot (h.exclusions exclusion hexclusion) hgame hcell hslot]
  simp only [match?, hexclusions, mapM_bind?_setSlot h.requirements hgame hcell hslot]

theorem RuleCell.layer_ne_of_mapM_bind? {requirements : List Requirement}
    (h : ∀ requirement ∈ requirements, requirement.objects.Avoids game layer)
    (hgame : game.IsLayered) (hcell : cell.Fits game) {bindings : List Binding}
    (hbind : (requirements.mapM fun requirement ↦ requirement.bind? cell.occupants) =
      some bindings) :
    ∀ binding ∈ bindings, binding.layer ≠ layer := by
  induction requirements generalizing bindings with
  | nil =>
    obtain rfl := Option.some.inj hbind
    exact fun _ hnil ↦ absurd hnil List.not_mem_nil
  | cons first rest ih =>
    obtain ⟨hfirst, hrest⟩ := List.forall_mem_cons.mp h
    rw [List.mapM_cons] at hbind
    obtain ⟨binding, hbinding, hbind⟩ := Option.bind_eq_some_iff.mp hbind
    obtain ⟨others, hothers, hbind⟩ := Option.bind_eq_some_iff.mp hbind
    obtain rfl := Option.some.inj hbind
    exact List.forall_mem_cons.mpr
      ⟨first.layer_ne_of_bind? hfirst hgame hcell hbinding, ih hrest hothers⟩

theorem RuleCell.layer_ne_of_match? (h : pattern.Avoids game layer) (hgame : game.IsLayered)
    (hcell : cell.Fits game) {bindings : List Binding}
    (hmatch : pattern.match? cell = some bindings) :
    ∀ binding ∈ bindings, binding.layer ≠ layer := by
  rw [match?] at hmatch
  dsimp only at hmatch
  split at hmatch
  · cases hmatch
  · exact layer_ne_of_mapM_bind? h.requirements hgame hcell hmatch

end Matching

/-! ## Edits -/

namespace CellEdit

variable {edit : CellEdit} {binding : Binding}

/-- The edit with one layer of the cell exchanged. -/
def setSlot (edit : CellEdit) (layer : LayerId) (slot : Option Occupant) : CellEdit :=
  ⟨edit.cell.setSlot layer slot, edit.changes⟩

theorem record_setSlot (edit : CellEdit) (cell : Cell) (object : ObjectId) (kind : ChangeKind) :
    (edit.setSlot layer slot).record (cell.setSlot layer slot) object kind =
      (edit.record cell object kind).setSlot layer slot := rfl

theorem occupant?_setSlot {other : LayerId} (h : other ≠ layer) (edit : CellEdit)
    (slot : Option Occupant) :
    (edit.setSlot layer slot).cell.occupant? other = edit.cell.occupant? other :=
  Cell.occupant?_setSlot_ne h slot

theorem isInPlace_setSlot (h : binding.layer ≠ layer) (edit : CellEdit)
    (slot : Option Occupant) :
    (edit.setSlot layer slot).isInPlace binding = edit.isInPlace binding := by
  rw [isInPlace, isInPlace, occupant?_setSlot h]

theorem remove_setSlot (h : binding.layer ≠ layer) (edit : CellEdit) (slot : Option Occupant) :
    (edit.setSlot layer slot).remove binding = (edit.remove binding).setSlot layer slot := by
  rw [remove, remove, isInPlace_setSlot h]
  split
  · rw [← record_setSlot]
    exact congrArg (fun cell ↦ (edit.setSlot layer slot).record cell _ _)
      (edit.cell.setSlot_comm h slot none)
  · rfl

theorem writeIntent_setSlot (h : binding.layer ≠ layer) (edit : CellEdit)
    (slot : Option Occupant) (write : IntentWrite) :
    (edit.setSlot layer slot).writeIntent binding write =
      (edit.writeIntent binding write).setSlot layer slot := by
  rw [writeIntent, writeIntent, occupant?_setSlot h]
  cases edit.cell.occupant? binding.layer with
  | none => rfl
  | some occupant =>
    dsimp only
    split
    · cases write.effect? occupant.movement with
      | none => rfl
      | some effect =>
        rw [← record_setSlot]
        exact congrArg (fun cell ↦ (edit.setSlot layer slot).record cell _ _)
          (edit.cell.setSlot_comm h slot _)
    · rfl

theorem takeOutAll_setSlot {occupants : List (LayerId × Occupant)}
    (h : ∀ x ∈ occupants, x.1 ≠ layer) (edit : CellEdit) (slot : Option Occupant) :
    occupants.foldl (fun edit (other, occupant) ↦
        edit.record (edit.cell.take other) occupant.object .destroy) (edit.setSlot layer slot) =
      (occupants.foldl (fun edit (other, occupant) ↦
        edit.record (edit.cell.take other) occupant.object .destroy) edit).setSlot layer slot := by
  induction occupants generalizing edit with
  | nil => rfl
  | cons first rest ih =>
    obtain ⟨hfirst, hrest⟩ := List.forall_mem_cons.mp h
    rw [List.foldl_cons, List.foldl_cons, ← ih hrest, ← record_setSlot]
    exact congrArg (fun cell ↦ rest.foldl _ ((edit.setSlot layer slot).record cell _ _))
      (edit.cell.setSlot_comm hfirst slot none)

theorem clear_setSlot {set : ObjectSet} (h : set.Avoids game layer) (hgame : game.IsLayered)
    (hedit : edit.cell.Fits game) (hslot : game.Admits layer slot) :
    (edit.setSlot layer slot).clear set = (edit.clear set).setSlot layer slot := by
  have hfilter := hedit.filter_occupants_setSlot hgame hslot
    (p := fun occupant ↦ set.contains occupant.object)
    fun occupant hoccupant ↦ h.contains_eq_false hoccupant
  rw [clear, clear, ← takeOutAll_setSlot]
  · exact congrArg (fun occupants ↦ List.foldl _ _ occupants) hfilter
  · rintro ⟨other, occupant⟩ hmem (rfl : other = layer)
    obtain ⟨hmem, hcontains⟩ := List.mem_filter.mp hmem
    have hocc := (Cell.mem_occupants (hedit.length_le hgame)).mp hmem
    exact absurd hcontains (ne_true_of_eq_false
      (h.contains_eq_false (hedit.layer?_eq other occupant hocc)))

theorem place_setSlot {other : LayerId} (h : other ≠ layer) (edit : CellEdit)
    (slot : Option Occupant) (spawn : Spawn) :
    (edit.setSlot layer slot).place other spawn =
      (edit.place other spawn).setSlot layer slot := by
  have hput : (edit.setSlot layer slot).cell.put other ⟨spawn.object, spawn.movement⟩ =
      (edit.cell.put other ⟨spawn.object, spawn.movement⟩).setSlot layer slot :=
    edit.cell.setSlot_comm h slot _
  rw [place, place, occupant?_setSlot h, hput]
  cases edit.cell.occupant? other with
  | none => cases spawn.movement <;> rfl
  | some previous => cases spawn.movement <;> rfl

theorem spawn_setSlot {spawn : Spawn} (h : game.layer? spawn.object ≠ some layer)
    (edit : CellEdit) (slot : Option Occupant) :
    (edit.setSlot layer slot).spawn game spawn = (edit.spawn game spawn).setSlot layer slot := by
  rw [CellEdit.spawn, CellEdit.spawn]
  cases htemplate : game.template? spawn.object with
  | none => rfl
  | some template =>
    have hne : template.layer ≠ layer := fun heq ↦
      h (heq ▸ Game.layer?_of_template? htemplate)
    dsimp only
    rw [isInPlace_setSlot hne]
    split
    · cases spawn.movement with
      | none => rfl
      | some movement => exact writeIntent_setSlot hne edit slot _
    · exact place_setSlot hne edit slot spawn

end CellEdit

/-! ## Rewriting a cell -/

namespace RuleCell

variable {pattern : RuleCell} {bindings : List Binding} {cell : Cell}

theorem removeBound_setSlot (h : ∀ binding ∈ bindings, binding.layer ≠ layer)
    (pattern : RuleCell) (edit : CellEdit) (slot : Option Occupant) :
    pattern.removeBound bindings (edit.setSlot layer slot) =
      (pattern.removeBound bindings edit).setSlot layer slot := by
  refine List.foldl_rel (r := fun edit' edit ↦ edit' = CellEdit.setSlot edit layer slot) rfl ?_
  rintro ⟨requirement, binding⟩ hmem _ edit rfl
  cases hfate : requirement.fate with
  | keep write => simp [hfate]
  | remove => simp [hfate, CellEdit.remove_setSlot (h binding (List.of_mem_zip hmem).2)]

theorem writeKept_setSlot (h : ∀ binding ∈ bindings, binding.layer ≠ layer)
    (pattern : RuleCell) (edit : CellEdit) (slot : Option Occupant) :
    pattern.writeKept bindings (edit.setSlot layer slot) =
      (pattern.writeKept bindings edit).setSlot layer slot := by
  refine List.foldl_rel (r := fun edit' edit ↦ edit' = CellEdit.setSlot edit layer slot) rfl ?_
  rintro ⟨requirement, binding⟩ hmem _ edit rfl
  cases hfate : requirement.fate with
  | keep write =>
    simp [hfate, CellEdit.writeIntent_setSlot (h binding (List.of_mem_zip hmem).2)]
  | remove => simp [hfate]

theorem beforeSpawns_setSlot (havoids : pattern.Avoids game layer) (hgame : game.IsLayered)
    (hcell : cell.Fits game) (hslot : game.Admits layer slot)
    (h : ∀ binding ∈ bindings, binding.layer ≠ layer) :
    pattern.beforeSpawns (cell.setSlot layer slot) bindings =
      (pattern.beforeSpawns cell bindings).setSlot layer slot := by
  have hkept : pattern.writeKept bindings (pattern.removeBound bindings
      (CellEdit.setSlot ⟨cell, []⟩ layer slot)) = CellEdit.setSlot (pattern.writeKept bindings
        (pattern.removeBound bindings ⟨cell, []⟩)) layer slot := by
    rw [removeBound_setSlot h, writeKept_setSlot h]
  have hstart := pattern.tells_writeKept
    (pattern.tells_removeBound (CellEdit.tells_start hcell) bindings) bindings
  -- what is taken out of the cell depends on the cell, so it must go on fitting
  refine (List.foldl_rel (r := fun edit' edit ↦ edit' = CellEdit.setSlot edit layer slot ∧
    CellEdit.Tells game cell edit) ⟨hkept, hstart⟩ ?_).1
  rintro set hset _ edit ⟨rfl, hedit⟩
  exact ⟨CellEdit.clear_setSlot (havoids.clears set hset) hgame hedit.fits hslot,
    hedit.clear hgame set⟩

/-- **Rewriting a cell passes over a layer** whose objects the pattern does not mention. -/
theorem rewrite_setSlot (havoids : pattern.Avoids game layer) (hgame : game.IsLayered)
    (hcell : cell.Fits game) (hslot : game.Admits layer slot)
    (h : ∀ binding ∈ bindings, binding.layer ≠ layer) :
    pattern.rewrite game (cell.setSlot layer slot) bindings =
      (pattern.rewrite game cell bindings).setSlot layer slot := by
  rw [rewrite_eq, rewrite_eq, beforeSpawns_setSlot havoids hgame hcell hslot h]
  refine List.foldl_rel (r := fun edit' edit ↦ edit' = CellEdit.setSlot edit layer slot) rfl ?_
  rintro spawn hspawn _ edit rfl
  exact CellEdit.spawn_setSlot (havoids.spawns spawn hspawn) edit slot

theorem cell_rewrite_setSlot_iff (havoids : pattern.Avoids game layer) (hgame : game.IsLayered)
    (hcell : cell.Fits game) (h : ∀ binding ∈ bindings, binding.layer ≠ layer)
    (slot : Option Occupant) :
    (pattern.rewrite game cell bindings).cell.setSlot layer slot = cell.setSlot layer slot ↔
      (pattern.rewrite game cell bindings).cell = cell := by
  refine ⟨fun heq ↦ ?_, fun heq ↦ by rw [heq]⟩
  -- a rewriting keeps the layer, since to put in what is there already is no exchange
  have hown := rewrite_setSlot havoids hgame hcell (hcell.layer?_eq layer) h
  rw [cell.setSlot_occupant?] at hown
  calc (pattern.rewrite game cell bindings).cell
      = (pattern.rewrite game cell bindings).cell.setSlot layer (cell.occupant? layer) :=
        congrArg CellEdit.cell hown
    _ = cell.setSlot layer (cell.occupant? layer) := by
        rw [← Cell.setSlot_setSlot _ layer slot, heq, Cell.setSlot_setSlot]
    _ = cell := cell.setSlot_occupant? layer

end RuleCell

/-! ## Matching and rewriting a board -/

section Board

variable {source board : Board} {rule : Rule} {origin : Position}

theorem matchCells_graft (hgame : game.IsLayered) (hsource : source.Fits game)
    (hboard : board.Fits game) {patterns : List RuleCell}
    (h : ∀ pattern ∈ patterns, pattern.Avoids game layer) (direction : Direction)
    (position : Position) :
    matchCells (.graft layer source board) direction patterns position =
      matchCells board direction patterns position := by
  induction patterns generalizing position with
  | nil => rfl
  | cons pattern patterns ih =>
    obtain ⟨hpattern, hpatterns⟩ := List.forall_mem_cons.mp h
    rw [matchCells, matchCells, Board.cell?_graft]
    cases hcell : board.cell? position with
    | none => rfl
    | some cell =>
      simp only [Option.map_some, Option.bind_eq_bind, Option.bind_some, ih hpatterns,
        RuleCell.match?_setSlot hpattern hgame (hboard.cell? hcell) (hsource.admits_slot? layer _)]

theorem Rule.match?_graft (h : rule.Avoids game layer) (hgame : game.IsLayered)
    (hsource : source.Fits game) (hboard : board.Fits game) (origin : Position) :
    rule.match? (.graft layer source board) origin = rule.match? board origin :=
  matchCells_graft hgame hsource hboard h rule.direction origin

theorem layer_ne_of_matchCells (hgame : game.IsLayered) (hboard : board.Fits game)
    {patterns : List RuleCell} (h : ∀ pattern ∈ patterns, pattern.Avoids game layer)
    {direction : Direction} {position : Position} {bindings : List (List Binding)}
    (hmatch : matchCells board direction patterns position = some bindings) :
    ∀ bound ∈ bindings, ∀ binding ∈ bound, binding.layer ≠ layer := by
  induction patterns generalizing position bindings with
  | nil =>
    obtain rfl := Option.some.inj hmatch
    exact fun _ hnil ↦ absurd hnil List.not_mem_nil
  | cons pattern patterns ih =>
    obtain ⟨hpattern, hpatterns⟩ := List.forall_mem_cons.mp h
    obtain ⟨cell, hcell, hmatch⟩ := Option.bind_eq_some_iff.mp hmatch
    obtain ⟨first, hfirst, hmatch⟩ := Option.bind_eq_some_iff.mp hmatch
    obtain ⟨rest, hrest, hmatch⟩ := Option.bind_eq_some_iff.mp hmatch
    obtain rfl := Option.some.inj hmatch
    exact List.forall_mem_cons.mpr
      ⟨RuleCell.layer_ne_of_match? hpattern hgame (hboard.cell? hcell) hfirst, ih hpatterns hrest⟩

theorem rewriteCells_graft (hgame : game.IsLayered) (hsource : source.Fits game)
    (hboard : board.Fits game) {row : List (RuleCell × List Binding)}
    (h : ∀ x ∈ row, x.1.Avoids game layer ∧ ∀ binding ∈ x.2, binding.layer ≠ layer)
    (direction : Direction) (position : Position) :
    rewriteCells game direction row position (.graft layer source board) =
      (.graft layer source (rewriteCells game direction row position board).1,
        (rewriteCells game direction row position board).2) := by
  induction row generalizing position board with
  | nil => rfl
  | cons first rest ih =>
    obtain ⟨pattern, bindings⟩ := first
    obtain ⟨⟨hpattern, hbindings⟩, hrest⟩ := List.forall_mem_cons.mp h
    rw [rewriteCells, rewriteCells, Board.cell?_graft]
    cases hcell : board.cell? position with
    | none => exact ih hboard hrest _
    | some cell =>
      have hfits := hboard.cell? hcell
      have hslot := hsource.admits_slot? layer (board.place position)
      have hedit := RuleCell.rewrite_setSlot hpattern hgame hfits hslot hbindings
      have hiff := RuleCell.cell_rewrite_setSlot_iff hpattern hgame hfits hbindings
        (source.slot? layer (board.place position))
      have htells := pattern.tells_rewrite hgame hfits bindings
      simp only [Option.map_some, hedit, CellEdit.setSlot, hiff]
      split
      · exact ih hboard hrest _
      · rw [← Board.graft_setCell, ih (hboard.setCell position htells.fits) hrest]

/-- **Rewriting a board passes over an inert layer**, and records the same. -/
theorem Rule.rewrite_graft (h : rule.Avoids game layer) (hgame : game.IsLayered)
    (hsource : source.Fits game) (hboard : board.Fits game) {bindings : List (List Binding)}
    (hmatch : rule.match? board origin = some bindings) :
    rule.rewrite game (.graft layer source board) origin bindings =
      (.graft layer source (rule.rewrite game board origin bindings).1,
        (rule.rewrite game board origin bindings).2) := by
  have hbindings := layer_ne_of_matchCells hgame hboard h hmatch
  rw [rewrite, rewrite, rewriteCells_graft hgame hsource hboard fun x hx ↦
    ⟨h x.1 (List.of_mem_zip hx).1, hbindings x.2 (List.of_mem_zip hx).2⟩]

end Board

/-! ## Running groups -/

section Run

variable {source board : Board}

theorem search_graft (hgame : game.IsLayered) (hsource : source.Fits game)
    (hboard : board.Fits game) {candidates : List (Position × Rule)}
    (h : ∀ candidate ∈ candidates, candidate.2.Avoids game layer) (winRequested : Bool) :
    search game candidates (.graft layer source board) winRequested =
      { search game candidates board winRequested with
        board := .graft layer source (search game candidates board winRequested).board } := by
  induction candidates generalizing winRequested with
  | nil => rfl
  | cons first rest ih =>
    obtain ⟨origin, rule⟩ := first
    obtain ⟨hrule, hrest⟩ := List.forall_mem_cons.mp h
    rw [search, search, rule.match?_graft hrule hgame hsource hboard]
    cases hmatch : rule.match? board origin with
    | none => exact ih hrest winRequested
    | some bindings =>
      dsimp only
      rw [rule.rewrite_graft hrule hgame hsource hboard hmatch]
      split
      · rfl
      · have hself := rule.rewrite_eq_self hgame hboard origin bindings
        generalize rule.rewrite game board origin bindings = result at hself
        obtain ⟨after, cells⟩ := result
        cases cells with
        | nil =>
          obtain rfl : after = board := hself rfl
          exact ih hrest _
        | cons cell cells => rfl

theorem settleGroup_graft (hgame : game.IsLayered) (hsource : source.Fits game)
    {candidates : List (Position × Rule)}
    (h : ∀ candidate ∈ candidates, candidate.2.Avoids game layer) (budget : Nat)
    (fired : List Firing) (hboard : board.Fits game) (winRequested : Bool) :
    settleGroup game candidates budget fired (.graft layer source board) winRequested =
      { settleGroup game candidates budget fired board winRequested with
        board := .graft layer source
          (settleGroup game candidates budget fired board winRequested).board } := by
  induction budget generalizing fired board winRequested with
  | zero => rfl
  | succ budget ih =>
    have hreplay := replay?_search hgame candidates hboard winRequested
    rw [settleGroup, settleGroup, search_graft hgame hsource hboard h]
    generalize search game candidates board winRequested = found at hreplay
    obtain ⟨after, winRequested', ended⟩ := found
    cases ended with
    | cancelled => rfl
    | settled => rfl
    | fired firing => exact ih (firing :: fired) (hboard.replay? hreplay) winRequested'

theorem RuleGroup.run_graft {group : RuleGroup} (h : ∀ rule ∈ group.rules, rule.Avoids game layer)
    (hgame : game.IsLayered) (hsource : source.Fits game) (hboard : board.Fits game)
    (maxRewrites : Nat) (winRequested : Bool) :
    group.run game maxRewrites (.graft layer source board) winRequested =
      { group.run game maxRewrites board winRequested with
        board := .graft layer source (group.run game maxRewrites board winRequested).board } :=
  settleGroup_graft hgame hsource (fun _ hcandidate ↦ h _ (mem_candidates.mp hcandidate).2) _ []
    hboard winRequested

/-- The state of a turn with one layer of its board exchanged. -/
def TurnState.graft (layer : LayerId) (source : Board) (state : TurnState) : TurnState :=
  { state with board := .graft layer source state.board }

@[simp] theorem TurnState.cancelled_graft (layer : LayerId) (source : Board) (state : TurnState) :
    (state.graft layer source).cancelled = state.cancelled := rfl

theorem runGroups_graft (hgame : game.IsLayered) (hsource : source.Fits game) (maxRewrites : Nat)
    {groups : List RuleGroup}
    (h : ∀ group ∈ groups, ∀ rule ∈ group.rules, rule.Avoids game layer) (place : Nat)
    {state : TurnState} (hboard : state.board.Fits game) :
    runGroups game maxRewrites groups place (state.graft layer source) =
      (runGroups game maxRewrites groups place state).graft layer source := by
  induction groups generalizing place state with
  | nil => rfl
  | cons group groups ih =>
    obtain ⟨hgroup, hgroups⟩ := List.forall_mem_cons.mp h
    have hrun : (state.graft layer source).runGroup game maxRewrites place group =
        (state.runGroup game maxRewrites place group).graft layer source := by
      rw [TurnState.runGroup_eq, TurnState.runGroup_eq]
      exact congrArg _ (RuleGroup.run_graft hgroup hgame hsource hboard maxRewrites _)
    have hfits : (state.runGroup game maxRewrites place group).board.Fits game :=
      hboard.replay? (group.replay?_run hgame maxRewrites hboard state.winRequested).1
    rw [runGroups, runGroups, hrun, TurnState.cancelled_graft]
    split
    · rfl
    · exact ih hgroups (place + 1) hfits

end Run

/-! ## Turns -/

namespace Game

variable {source board : Board}

theorem marked_graft (game : Game) (input : Option Movement) (layer : LayerId)
    (source board : Board) : game.marked input (.graft layer source board) =
      .graft layer (game.marked input source) (game.marked input board) := by
  cases input with
  | none => rfl
  | some movement => exact Board.mark_graft layer source board game.player movement

theorem lastState_graft (hgame : game.IsLayered) (hinert : game.IsInert layer)
    (hsource : source.Fits game) (hboard : board.Fits game) (maxRewrites : Nat)
    (input : Option Movement) :
    game.lastState maxRewrites input (.graft layer source board) =
      (game.lastState maxRewrites input board).graft layer (game.marked input source) := by
  have hmarked : Board.Fits game
      (TurnState.mk (game.marked input board) false [] [] false).board := fits_marked input hboard
  rw [lastState, marked_graft]
  exact runGroups_graft hgame (fits_marked input hsource) maxRewrites hinert 0 hmarked

/-- **A turn commutes with the exchange of an inert layer.** -/
theorem runTurn_graft (hgame : game.IsLayered) (hinert : game.IsInert layer)
    (hsource : source.Fits game) (hboard : board.Fits game) (maxRewrites : Nat)
    (input : Option Movement) :
    game.runTurn maxRewrites input (.graft layer source board) =
      { game.runTurn maxRewrites input board with
        board := .graft layer source.settle (game.runTurn maxRewrites input board).board } := by
  have hlast := lastState_graft hgame hinert hsource hboard maxRewrites input
  have hsame : (game.runTurn maxRewrites input (.graft layer source board)).cancelled =
      (game.runTurn maxRewrites input board).cancelled := by
    simp [hlast]
  cases hcancelled : (game.runTurn maxRewrites input board).cancelled with
  | false =>
    rw [runTurn_of_not_cancelled hcancelled, runTurn_of_not_cancelled (hsame.trans hcancelled),
      hlast]
    dsimp only [TurnState.graft]
    rw [Board.settle_graft, settle_marked]
  | true =>
    rw [runTurn_of_cancelled hgame hboard hcancelled,
      runTurn_of_cancelled hgame (hboard.graft hsource) (hsame.trans hcancelled), hlast,
      Board.settle_graft]
    rfl

theorem agreesOn_runTurn (hgame : game.IsLayered) (hinert : game.IsInert layer)
    (hboard : board.Fits game) (hstill : board.IsStill) (maxRewrites : Nat)
    (input : Option Movement) :
    board.AgreesOn layer (game.runTurn maxRewrites input board).board := by
  have hgraft := congrArg Turn.board
    (runTurn_graft hgame hinert hboard hboard maxRewrites input)
  rw [Board.graft_self, Board.settle_eq_self hstill] at hgraft
  have hshape : board.SameShape (game.runTurn maxRewrites input board).board :=
    sameShape_runTurn hgame hboard
  rw [hgraft]
  exact Board.agreesOn_graft hboard (fits_runTurn hgame hboard) hshape.width.symm
    hshape.height.symm

/-- **An inert layer does not interfere.** Let no rule of a defined game mention an object of a
layer. Then the turns that begin on two still boards that agree off the layer have the same record
and come out in the same way, each leaves the layer of its own board as it was, and the boards that
they leave agree off the layer again. -/
theorem IsDefined.runTurn_of_isInert (hgame : game.IsDefined) (hinert : game.IsInert layer)
    {board board' : Board} (hboard : board.Fits game) (hboard' : board'.Fits game)
    (hstill : board.IsStill) (hstill' : board'.IsStill) (hagree : board.AgreesOff layer board')
    (maxRewrites : Nat) (input : Option Movement) :
    let turn := game.runTurn maxRewrites input board
    let turn' := game.runTurn maxRewrites input board'
    turn'.record = turn.record ∧ turn'.cancelled = turn.cancelled ∧
      turn'.winRequested = turn.winRequested ∧ turn'.saturated = turn.saturated ∧
      board.AgreesOn layer turn.board ∧ board'.AgreesOn layer turn'.board ∧
      turn.board.AgreesOff layer turn'.board := by
  intro turn turn'
  have hlayered := hgame.isLayered
  have hgraft : turn' = { turn with board := .graft layer board' turn.board } := by
    have hturn := runTurn_graft hlayered hinert hboard' hboard maxRewrites input
    rw [← hagree.eq_graft, Board.settle_eq_self hstill'] at hturn
    exact hturn
  refine ⟨by rw [hgraft], by rw [hgraft], by rw [hgraft], by rw [hgraft], ?_, ?_, ?_⟩
  · exact agreesOn_runTurn hlayered hinert hboard hstill maxRewrites input
  · exact agreesOn_runTurn hlayered hinert hboard' hstill' maxRewrites input
  · rw [hgraft]
    exact Board.agreesOff_graft layer board' turn.board

end Game

/-- A way with and without a bird over it. The bird is given the player's movements like the hero,
but no rule mentions it. -/
def birdway : String :=
  "OBJECTS\nHero P\n\nBird B\n\nBackground .\nLEGEND\nPlayer = Hero or Bird\n" ++
    "COLLISIONLAYERS\n.\nP\nB\nRULES\n[ > Hero | ] -> [ | Hero ]\nLEVELS\nP.\n\nPB\n"

/-- The hero goes to the right under the bird as without it, and the bird stays. -/
theorem runTurn_of_isInert_birdway : ∃ (game : Game) (board board' : Board),
    game.IsDefined ∧ game.IsInert ⟨2⟩ ∧ board.Fits game ∧ board'.Fits game ∧
      board.IsStill ∧ board'.IsStill ∧ board.AgreesOff ⟨2⟩ board' ∧
      board.slot? ⟨2⟩ 1 = none ∧ board'.slot? ⟨2⟩ 1 = some (.still ⟨1⟩) ∧
      (game.runTurn 2 (some (.toward .right)) board).record.firingCount = 1 ∧
      (game.runTurn 2 (some (.toward .right)) board').record =
        (game.runTurn 2 (some (.toward .right)) board).record ∧
      board'.AgreesOn ⟨2⟩ (game.runTurn 2 (some (.toward .right)) board').board := by
  have hread : (Session.readGame birdway).yields .empty (fun game ↦
      (game.level? 0).any fun board ↦ (game.level? 1).any fun board' ↦
        decide (game.IsInert ⟨2⟩ ∧ board.AgreesOff ⟨2⟩ board' ∧ board.slot? ⟨2⟩ 1 = none ∧
          board'.slot? ⟨2⟩ 1 = some (.still ⟨1⟩) ∧
          (game.runTurn 2 (some (.toward .right)) board).record.firingCount = 1)) = true := by
    decide +kernel
  obtain ⟨game, log, hgame, htest⟩ := Logged.exists_of_yields hread
  obtain ⟨board, hlevel, htest⟩ := (Option.any_eq_true _ _).mp htest
  obtain ⟨board', hlevel', htest⟩ := (Option.any_eq_true _ _).mp htest
  obtain ⟨hinert, hagree, hnone, hbird, hfired⟩ := of_decide_eq_true htest
  have hdefined := Session.isDefined_of_readGame ⟨.empty, log, hgame⟩
  obtain ⟨-, hboard, hstill⟩ := hdefined.isClosed.levels 0 board hlevel
  obtain ⟨-, hboard', hstill'⟩ := hdefined.isClosed.levels 1 board' hlevel'
  obtain ⟨hrecord, -, -, -, -, hkept, -⟩ := hdefined.runTurn_of_isInert hinert hboard hboard'
    hstill hstill' hagree 2 (some (.toward .right))
  exact ⟨game, board, board', hdefined, hinert, hboard, hboard', hstill, hstill', hagree, hnone,
    hbird, hfired, hrecord, hkept⟩

end TilePuzzle
