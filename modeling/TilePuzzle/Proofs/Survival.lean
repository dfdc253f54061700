import TilePuzzle.Proofs.Definition.Turn
import TilePuzzle.Proofs.Match

/-!
# What becomes of a kept object

Requirements are bound one by one, so two of them may be bound to the same object, and then one may
keep it while the other removes it. Objects are removed before intents are written, and writing an
intent brings nothing back: a removal prevails. Otherwise a bound object that is to be kept is in
its place after the rewriting, unless it is a member of a set that is taken out or an object is
spawned on its layer.

## The stages of an edit

What is asked throughout is whether a binding is in its place (`CellEdit.isInPlace`). Each stage of
a rewriting has one lemma that says what it does to that, and the lemma of the whole rewriting puts
them together (`isInPlace_rewrite`).
-/

namespace TilePuzzle

namespace CellEdit

variable {game : Game} {start : Cell} {edit : CellEdit} {binding : Binding}

/-! ## What is in its place after an edit -/

theorem isInPlace_congr {edit' : CellEdit}
    (h : edit'.cell.occupant? binding.layer = edit.cell.occupant? binding.layer) :
    edit'.isInPlace binding = edit.isInPlace binding := by
  rw [isInPlace, isInPlace, h]

theorem eq_of_isInPlace {other : Binding} (h : edit.isInPlace binding = true)
    (hother : edit.isInPlace other = true) (hlayer : other.layer = binding.layer) :
    other = binding := by
  obtain ⟨layer, object⟩ := binding
  obtain ⟨otherLayer, otherObject⟩ := other
  obtain rfl : otherLayer = layer := hlayer
  obtain ⟨occupant, hocc, rfl⟩ := isInPlace_iff.mp h
  obtain ⟨occupant', hocc', rfl⟩ := isInPlace_iff.mp hother
  rw [Option.some.inj (hocc.symm.trans hocc')]

theorem isInPlace_record_take {layer : LayerId} (object : ObjectId) (kind : ChangeKind) :
    (edit.record (edit.cell.take layer) object kind).isInPlace binding = true ↔
      edit.isInPlace binding = true ∧ layer ≠ binding.layer := by
  by_cases hlayer : layer = binding.layer
  · subst hlayer
    have hnone : (edit.cell.take binding.layer).occupant? binding.layer = none :=
      Cell.occupant?_take_self
    rw [isInPlace, record, hnone]
    simp
  · have hsame : (edit.cell.take layer).occupant? binding.layer =
        edit.cell.occupant? binding.layer := Cell.occupant?_setSlot_ne (Ne.symm hlayer) none
    rw [isInPlace, record, hsame, ← isInPlace]
    exact (and_iff_left hlayer).symm

theorem isInPlace_remove (other : Binding) :
    (edit.remove other).isInPlace binding = true ↔
      edit.isInPlace binding = true ∧ other ≠ binding := by
  rw [remove]
  split
  · next hother =>
    rw [isInPlace_record_take]
    refine and_congr_right fun hbinding ↦ not_congr ⟨eq_of_isInPlace hbinding hother, ?_⟩
    rintro rfl
    rfl
  · next hother =>
    refine (and_iff_left_of_imp fun hbinding ↦ ?_).symm
    rintro rfl
    exact hother hbinding

theorem isInPlace_record_put {layer : LayerId} {occupant : Occupant}
    (hocc : edit.cell.occupant? layer = some occupant) (movement : Option Movement)
    (object : ObjectId) (kind : ChangeKind) :
    (edit.record (edit.cell.put layer ⟨occupant.object, movement⟩) object kind).isInPlace binding =
      edit.isInPlace binding := by
  by_cases hlayer : binding.layer = layer
  · have hput : (edit.cell.put layer ⟨occupant.object, movement⟩).occupant? layer =
        some ⟨occupant.object, movement⟩ :=
      Cell.occupant?_setSlot_self (Cell.lt_length_of_occupant? hocc) _
    rw [isInPlace, isInPlace, record, hlayer, hput, hocc]
    rfl
  · exact isInPlace_congr (Cell.occupant?_setSlot_ne hlayer _)

@[simp] theorem isInPlace_writeIntent (other : Binding) (write : IntentWrite) :
    (edit.writeIntent other write).isInPlace binding = edit.isInPlace binding := by
  rw [writeIntent]
  split
  · rfl
  · next occupant hocc =>
    split
    · split
      · rfl
      · exact isInPlace_record_put hocc _ _ _
    · rfl

theorem isInPlace_takeOutAll (occupants : List (LayerId × Occupant)) :
    (occupants.foldl (fun edit (layer, occupant) ↦ edit.record (edit.cell.take layer)
        occupant.object .destroy) edit).isInPlace binding = true ↔
      edit.isInPlace binding = true ∧ ∀ x ∈ occupants, x.1 ≠ binding.layer := by
  induction occupants generalizing edit with
  | nil => simp
  | cons first rest ih =>
    rw [List.foldl_cons, ih, isInPlace_record_take, List.forall_mem_cons, and_assoc]

theorem isInPlace_clear (h : edit.Tells game start) (hgame : game.IsLayered) (set : ObjectSet) :
    (edit.clear set).isInPlace binding = true ↔
      edit.isInPlace binding = true ∧ set.contains binding.object = false := by
  have hlength := h.fits.length_le hgame
  rw [clear, isInPlace_takeOutAll]
  refine and_congr_right fun hbinding ↦ ?_
  obtain ⟨occupant, hocc, hobject⟩ := isInPlace_iff.mp hbinding
  constructor
  · intro hnone
    refine eq_false_of_ne_true fun hcontains ↦ ?_
    rw [← hobject] at hcontains
    have hmem := (Cell.mem_occupants hlength).mpr hocc
    exact hnone _ (List.mem_filter.mpr ⟨hmem, hcontains⟩) rfl
  · rintro hfree ⟨layer, other⟩ hmem rfl
    obtain ⟨hother, hcontains⟩ := List.mem_filter.mp hmem
    have hsame := Option.some.inj (hocc.symm.trans ((Cell.mem_occupants hlength).mp hother))
    rw [← hobject, hsame] at hfree
    exact Bool.false_ne_true (hfree.symm.trans hcontains)

theorem isInPlace_place {layer : LayerId} (h : layer ≠ binding.layer) (spawn : Spawn) :
    (edit.place layer spawn).isInPlace binding = edit.isInPlace binding := by
  have hput : (edit.cell.put layer ⟨spawn.object, spawn.movement⟩).occupant? binding.layer =
      edit.cell.occupant? binding.layer := Cell.occupant?_setSlot_ne (Ne.symm h) _
  refine isInPlace_congr (Eq.trans ?_ hput)
  rw [place]
  cases edit.cell.occupant? layer with
  | none => cases spawn.movement <;> rfl
  | some previous => cases spawn.movement <;> rfl

theorem isInPlace_spawn {spawn : Spawn} (h : game.layer? spawn.object ≠ some binding.layer) :
    (edit.spawn game spawn).isInPlace binding = edit.isInPlace binding := by
  rw [CellEdit.spawn]
  cases htemplate : game.template? spawn.object with
  | none => rfl
  | some template =>
    dsimp only
    split
    · cases spawn.movement with
      | none => rfl
      | some movement => exact isInPlace_writeIntent _ _
    · refine isInPlace_place (fun hlayer ↦ h ?_) spawn
      rw [Game.layer?_of_template? htemplate, hlayer]

end CellEdit

/-! ## Rewriting a cell -/

namespace RuleCell

variable {game : Game} {start : Cell} {edit : CellEdit} {binding : Binding}

/-- Removing bound objects leaves just those that no requirement removes. -/
theorem isInPlace_removeBound (pattern : RuleCell) (bindings : List Binding) (edit : CellEdit) :
    (pattern.removeBound bindings edit).isInPlace binding = true ↔
      edit.isInPlace binding = true ∧ ∀ pair ∈ pattern.requirements.zip bindings,
        pair.1.fate = .remove → pair.2 ≠ binding := by
  rw [removeBound]
  induction pattern.requirements.zip bindings generalizing edit with
  | nil => simp
  | cons first rest ih =>
    obtain ⟨requirement, other⟩ := first
    rw [List.foldl_cons, ih, List.forall_mem_cons]
    dsimp only
    cases requirement.fate with
    | keep write => simp
    | remove =>
      dsimp only
      rw [CellEdit.isInPlace_remove, and_assoc, forall_prop_of_true rfl]

@[simp] theorem isInPlace_writeKept (pattern : RuleCell) (bindings : List Binding)
    (edit : CellEdit) :
    (pattern.writeKept bindings edit).isInPlace binding = edit.isInPlace binding := by
  refine List.foldlRecOn (motive := fun after : CellEdit ↦
    after.isInPlace binding = edit.isInPlace binding) _ _ rfl ?_
  rintro before hbefore ⟨requirement, other⟩ -
  dsimp only
  cases requirement.fate with
  | keep write => exact (CellEdit.isInPlace_writeIntent other write).trans hbefore
  | remove => exact hbefore

theorem isInPlace_clearAll (h : edit.Tells game start) (hgame : game.IsLayered)
    (sets : List ObjectSet) :
    (sets.foldl CellEdit.clear edit).isInPlace binding = true ↔
      edit.isInPlace binding = true ∧ ∀ set ∈ sets, set.contains binding.object = false := by
  induction sets generalizing edit with
  | nil => simp
  | cons set sets ih =>
    rw [List.foldl_cons, ih (h.clear hgame set), CellEdit.isInPlace_clear h hgame,
      List.forall_mem_cons, and_assoc]

/-- **What is in its place after a rewriting**, on a layer where nothing is spawned: what was there
and is neither removed nor taken out. -/
theorem isInPlace_rewrite (hgame : game.IsLayered) (pattern : RuleCell) {cell : Cell}
    (hcell : cell.Fits game) (bindings : List Binding)
    (hspawns : ∀ spawn ∈ pattern.spawns, game.layer? spawn.object ≠ some binding.layer) :
    (pattern.rewrite game cell bindings).isInPlace binding = true ↔
      (⟨cell, []⟩ : CellEdit).isInPlace binding = true ∧
      (∀ pair ∈ pattern.requirements.zip bindings, pair.1.fate = .remove → pair.2 ≠ binding) ∧
        ∀ set ∈ pattern.clears, set.contains binding.object = false := by
  have hspawned : (pattern.rewrite game cell bindings).isInPlace binding =
      (pattern.beforeSpawns cell bindings).isInPlace binding := by
    rw [rewrite_eq]
    exact List.foldlRecOn (motive := fun after : CellEdit ↦ after.isInPlace binding =
      (pattern.beforeSpawns cell bindings).isInPlace binding) _ _ rfl
      fun before hbefore spawn hspawn ↦
        (CellEdit.isInPlace_spawn (hspawns spawn hspawn)).trans hbefore
  have htells := pattern.tells_writeKept
    (pattern.tells_removeBound (CellEdit.tells_start hcell) bindings) bindings
  rw [hspawned, beforeSpawns, isInPlace_clearAll htells hgame, isInPlace_writeKept,
    isInPlace_removeBound, and_assoc]

end RuleCell

/-! ## Kept objects -/

/-- A bound object that a rule of the game keeps where it matches: the cell takes out no set with
the object and spawns nothing on its layer. -/
structure Kept (game : Game) (board : Board) where
  rule : Rule
  origin : Position
  bindings : List (List Binding)
  /-- The place of the cell in the row of the rule. -/
  place : Nat
  pattern : RuleCell
  bound : List Binding
  requirement : Requirement
  binding : Binding
  exists_group : ∃ group ∈ game.groups, rule ∈ group.rules
  match?_eq : rule.match? board origin = some bindings
  getElem?_eq : (rule.cells.zip bindings)[place]? = some (pattern, bound)
  mem_zip : (requirement, binding) ∈ pattern.requirements.zip bound
  fate_ne : requirement.fate ≠ .remove
  not_cleared : ∀ set ∈ pattern.clears, set.contains binding.object = false
  not_replaced : ∀ spawn ∈ pattern.spawns, game.layer? spawn.object ≠ some binding.layer

namespace Kept

variable {game : Game} {board : Board}

/-- The object is on its layer of the cell after the rewriting. -/
def Survives (kept : Kept game board) : Prop :=
  ∃ cell, (kept.rule.rewrite game board kept.origin kept.bindings).1.cell?
      (kept.origin.offset kept.rule.direction kept.place) = some cell ∧
    (cell.occupant? kept.binding.layer).map Occupant.object = some kept.binding.object

/-- No requirement of the cell that is bound to the object removes it. -/
def IsSpared (kept : Kept game board) : Prop :=
  ∀ pair ∈ kept.pattern.requirements.zip kept.bound,
    pair.1.fate = .remove → pair.2 ≠ kept.binding

/-- **A kept object survives just when no requirement removes it.** -/
theorem survives_iff (hgame : game.IsDefined) (hboard : board.Fits game)
    (kept : Kept game board) : kept.Survives ↔ kept.IsSpared := by
  obtain ⟨cell, hcell, hmatch⟩ := exists_match?_of_matchCells kept.match?_eq kept.getElem?_eq
  have hfits := hboard.cell? hcell
  obtain ⟨occupant, hocc, hobject, -⟩ := Requirement.isMetBy_of_bind?
    (hfits.length_le hgame.isLayered) (RuleCell.bind?_of_match? hmatch kept.mem_zip)
  have hstart : (⟨cell, []⟩ : CellEdit).isInPlace kept.binding = true :=
    CellEdit.isInPlace_iff.mpr ⟨occupant, hocc, hobject⟩
  have hrewrite := kept.pattern.isInPlace_rewrite hgame.isLayered hfits kept.bound
    kept.not_replaced
  rw [and_iff_right hstart, CellEdit.isInPlace, beq_iff_eq] at hrewrite
  have hafter : (kept.rule.rewrite game board kept.origin kept.bindings).1.cell?
      (kept.origin.offset kept.rule.direction kept.place) =
        some (kept.pattern.rewrite game cell kept.bound).cell :=
    cell?_rewriteCells_of_getElem? kept.getElem?_eq hcell
  constructor
  · rintro ⟨after, hsome, hthere⟩
    obtain rfl := Option.some.inj (hafter.symm.trans hsome)
    exact (hrewrite.mp hthere).1
  · intro hspared
    exact ⟨_, hafter, hrewrite.mpr ⟨hspared, kept.not_cleared⟩⟩

/-! ## A crate that is a thing -/

/-- A room with some things in it. The rule takes a crate out and keeps a thing, and a crate is a
thing. -/
def storeroom (row : String) : String :=
  "OBJECTS\nPlayer P\n\nLamp L\n\nCrate C\nLEGEND\nThing = Lamp or Crate\n" ++
    "B = Lamp and Crate\nCOLLISIONLAYERS\nPlayer\nLamp\nCrate\n" ++
    "RULES\n[ Crate Thing ] -> [ Thing ]\nLEVELS\n" ++ row ++ "\n"

/-- Whether some rule that matches at an origin keeps an object in its first cell, takes out and
spawns nothing there, and leaves on the layer of the object what passes a test. -/
def leavesKept (game : Game) (board : Board) (origin : Position)
    (test : ObjectId → Option Occupant → Bool) : Bool :=
  game.groups.any fun group ↦ group.rules.any fun rule ↦
    (rule.match? board origin).any fun bindings ↦
      (rule.cells.zip bindings)[0]?.any fun (pattern, bound) ↦
        (pattern.requirements.zip bound).any fun (requirement, binding) ↦
          decide (requirement.fate ≠ .remove ∧ pattern.clears = [] ∧ pattern.spawns = []) &&
            ((rule.rewrite game board origin bindings).1.cell? origin).any fun cell ↦
              test binding.object (cell.occupant? binding.layer)

theorem exists_of_leavesKept {origin : Position} {test : ObjectId → Option Occupant → Bool}
    (h : leavesKept game board origin test = true) :
    ∃ (kept : Kept game board) (cell : Cell),
      (kept.rule.rewrite game board kept.origin kept.bindings).1.cell?
        (kept.origin.offset kept.rule.direction kept.place) = some cell ∧
      test kept.binding.object (cell.occupant? kept.binding.layer) = true := by
  obtain ⟨group, hgroup, h⟩ := List.any_eq_true.mp h
  obtain ⟨rule, hrule, h⟩ := List.any_eq_true.mp h
  obtain ⟨bindings, hmatch, h⟩ := (Option.any_eq_true _ _).mp h
  obtain ⟨⟨pattern, bound⟩, hn, h⟩ := (Option.any_eq_true _ _).mp h
  obtain ⟨⟨requirement, binding⟩, hmem, h⟩ := List.any_eq_true.mp h
  rw [Bool.and_eq_true, decide_eq_true_iff] at h
  obtain ⟨⟨hfate, hclears, hspawns⟩, h⟩ := h
  obtain ⟨cell, hcell, htest⟩ := (Option.any_eq_true _ _).mp h
  refine ⟨⟨rule, origin, bindings, 0, pattern, bound, requirement, binding, ⟨group, hgroup, hrule⟩,
    hmatch, hn, hmem, hfate, ?_, ?_⟩, cell, ?_, htest⟩
  · simp [hclears]
  · simp [hspawns]
  · exact (Position.offset_zero origin rule.direction).symm ▸ hcell

/-- The crate and the lamp of the storeroom are matched by one requirement each, and the lamp is
spared. -/
theorem survives_iff_storeroom : ∃ (game : Game) (board : Board), game.IsDefined ∧
    board.Fits game ∧ ∃ kept : Kept game board, kept.Survives ∧ kept.IsSpared := by
  have hread : (Session.readGame (storeroom "PB")).yields .empty (fun game ↦
      (game.level? 0).any fun board ↦ leavesKept game board ⟨1, 0⟩ fun object occupant ↦
        occupant.map Occupant.object == some object) = true := by
    decide +kernel
  obtain ⟨game, board, hgame, hboard, -, hkept⟩ := Session.exists_of_yields hread
  obtain ⟨kept, cell, hcell, hthere⟩ := exists_of_leavesKept hkept
  have hsurvives : kept.Survives := ⟨cell, hcell, beq_iff_eq.mp hthere⟩
  exact ⟨game, board, hgame, hboard, kept, hsurvives, (survives_iff hgame hboard kept).mp hsurvives⟩

/-- A crate by itself is bound by both requirements, and is removed although one of them keeps
it. -/
theorem exists_not_survives_storeroom : ∃ (game : Game) (board : Board), game.IsDefined ∧
    board.Fits game ∧ ∃ kept : Kept game board, ¬kept.Survives := by
  have hread : (Session.readGame (storeroom "PC")).yields .empty (fun game ↦
      (game.level? 0).any fun board ↦ leavesKept game board ⟨1, 0⟩ fun _ occupant ↦
        occupant.isNone) = true := by
    decide +kernel
  obtain ⟨game, board, hgame, hboard, -, hkept⟩ := Session.exists_of_yields hread
  obtain ⟨kept, cell, hcell, hnone⟩ := exists_of_leavesKept hkept
  refine ⟨game, board, hgame, hboard, kept, ?_⟩
  rintro ⟨after, hafter, hthere⟩
  obtain rfl := Option.some.inj (hcell.symm.trans hafter)
  rw [Option.isNone_iff_eq_none.mp hnone] at hthere
  cases hthere

end Kept

end TilePuzzle
