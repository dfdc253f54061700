import Mathlib.Tactic.MkIffOfInductiveProp
import TilePuzzle.Proofs.Agreement
import TilePuzzle.Proofs.Definition.Namespace

/-!
# How names are spelled does not matter

Layer lines, rules, win conditions and drawings use names, and a name is looked up in the legend
wherever it is used. So a document may be spelled differently, with names that denote the same in
place of those that are written: the same name in another case, another name or symbol of the same
object, a symbol that the legend explains alike. It defines the same game, or it is refused for the
same fault, of which only the quoted name is another.

## Agreement

Two computations agree here if they come to the same, or fail with errors that are the same without
the quoted name (`AgreeUnquoted`). Looking up a name is the only step that sees its spelling, and it
agrees for names that denote the same (`Identifies.resolve`). Every stage is made of such steps, and
agreement is passed on from the parts of a computation to the whole; so the proof of each stage goes
through it once, in the order of its definition.
-/

namespace TilePuzzle

/-! ## Errors -/

/-- The error without the name that it quotes from where the name is used. -/
def DefinitionError.anonymous : DefinitionError → DefinitionError
  | undefinedName line _ => undefinedName line ""
  | unboundProperty line _ => unboundProperty line ""
  | ambiguousLevelSymbol line _ => ambiguousLevelSymbol line ""
  | levelLayerConflict line _ layer => levelLayerConflict line "" layer
  | error => error

/-- Both come to the same, or they are refused for the same fault. -/
abbrev AgreeUnquoted {α : Type} (x y : Except DefinitionError α) : Prop :=
  AgreeUpTo DefinitionError.anonymous x y

/-! ## Names -/

/-- Two names denote the same, if they denote anything. -/
def Legend.Identifies (legend : Legend) (name other : String) : Prop :=
  legend.lookup? name = legend.lookup? other

instance (legend : Legend) : DecidableRel legend.Identifies :=
  fun name other ↦ inferInstanceAs (Decidable (legend.lookup? name = legend.lookup? other))

namespace Legend

variable {legend : Legend} {name other : String}

theorem Identifies.resolve (h : legend.Identifies name other) (line : Nat) :
    AgreeUnquoted (legend.resolve line name) (legend.resolve line other) := by
  rw [Legend.resolve, Legend.resolve, h]
  cases legend.lookup? other with
  | none => exact agreeUpTo_error rfl
  | some meaning => exact .refl _

end Legend

/-! ## Other spellings -/

section Respelling

variable (legend : Legend)

/-- A layer line with names that denote the same in place of its own. -/
@[mk_iff]
structure LayerDeclaration.IsRespelled (layer other : LayerDeclaration) : Prop where
  line_eq : layer.line = other.line
  names : List.Forall₂ legend.Identifies layer.names other.names

/-- A term with a name that denotes the same in place of its own. -/
@[mk_iff]
structure PatternTerm.IsRespelled (term other : PatternTerm) : Prop where
  negated_eq : term.negated = other.negated
  movement_eq : term.movement = other.movement
  name : legend.Identifies term.name other.name

instance : DecidableRel (PatternTerm.IsRespelled legend) :=
  fun _ _ ↦ decidable_of_iff _ (PatternTerm.isRespelled_iff ..).symm

/-- Patterns of the same form, term by term with names that denote the same. -/
abbrev CellPattern.AreRespelled (cells others : List CellPattern) : Prop :=
  List.Forall₂ (List.Forall₂ (PatternTerm.IsRespelled legend)) cells others

/-- A rule of the same form with names that denote the same. -/
@[mk_iff]
structure RuleDeclaration.IsRespelled (rule other : RuleDeclaration) : Prop where
  line_eq : rule.line = other.line
  joinsPrevious_eq : rule.joinsPrevious = other.joinsPrevious
  headings_eq : rule.headings = other.headings
  left : CellPattern.AreRespelled legend rule.left other.left
  right : List.Forall₂ (CellPattern.AreRespelled legend) rule.right.toList other.right.toList
  commands_eq : rule.commands = other.commands

/-- A win condition of the same form with names that denote the same. -/
@[mk_iff]
structure WinDeclaration.IsRespelled (declaration other : WinDeclaration) : Prop where
  line_eq : declaration.line = other.line
  quantifier_eq : declaration.quantifier = other.quantifier
  subject : legend.Identifies declaration.subject other.subject
  target : List.Forall₂ legend.Identifies declaration.target.toList other.target.toList

/-- A level of the same form, in each place with a symbol that denotes the same. -/
@[mk_iff]
structure Drawing.IsRespelled (drawing other : Drawing) : Prop where
  line_eq : drawing.line = other.line
  rows : List.Forall₂ (fun row row' ↦
    List.Forall₂ (fun c c' ↦ legend.Identifies (.ofList [c]) (.ofList [c'])) row.toList row'.toList)
      drawing.rows other.rows

/-- Wherever one document uses a name, the other uses one that denotes the same. -/
@[mk_iff]
structure Document.UsesAlike (document other : Document) : Prop where
  layers : List.Forall₂ (LayerDeclaration.IsRespelled legend) document.layers other.layers
  rules : List.Forall₂ (RuleDeclaration.IsRespelled legend) document.rules other.rules
  winConditions :
    List.Forall₂ (WinDeclaration.IsRespelled legend) document.winConditions other.winConditions
  levels : List.Forall₂ (Drawing.IsRespelled legend) document.levels other.levels

instance : DecidableRel (LayerDeclaration.IsRespelled legend) :=
  fun _ _ ↦ decidable_of_iff _ (LayerDeclaration.isRespelled_iff ..).symm

instance : DecidableRel (RuleDeclaration.IsRespelled legend) :=
  fun _ _ ↦ decidable_of_iff _ (RuleDeclaration.isRespelled_iff ..).symm

instance : DecidableRel (WinDeclaration.IsRespelled legend) :=
  fun _ _ ↦ decidable_of_iff _ (WinDeclaration.isRespelled_iff ..).symm

instance : DecidableRel (Drawing.IsRespelled legend) :=
  fun _ _ ↦ decidable_of_iff _ (Drawing.isRespelled_iff ..).symm

instance : DecidableRel (Document.UsesAlike legend) :=
  fun _ _ ↦ decidable_of_iff _ (Document.usesAlike_iff ..).symm

end Respelling

/-- Two documents differ at most in how they spell the names that they use: they declare and define
the same, and if this comes to a table of names, the names that they use denote the same in it. -/
structure Document.IsRespelled (document other : Document) : Prop where
  settings_eq : document.settings = other.settings
  objects_eq : document.objects = other.objects
  legend_eq : document.legend = other.legend
  uses : ∀ table, (SymbolTable.build document.objects document.legend).Gives table →
    UsesAlike table.legend document other

variable {legend : Legend}

/-! ## Rules -/

namespace RuleCell

variable {term term' : PatternTerm}

theorem agree_addLeft (h : PatternTerm.IsRespelled legend term term') (line : Nat)
    (along : Direction) (cell : RuleCell) :
    AgreeUnquoted (addLeft legend line along cell term) (addLeft legend line along cell term') := by
  rw [addLeft, addLeft, h.negated_eq, h.movement_eq]
  exact (h.name.resolve line).bind fun _ ↦ .refl _

theorem agree_addRight (h : PatternTerm.IsRespelled legend term term') (line : Nat)
    (along : Direction) (cell : RuleCell) :
    AgreeUnquoted (addRight legend line along cell term)
      (addRight legend line along cell term') := by
  rw [addRight, addRight, h.negated_eq, h.movement_eq]
  refine (h.name.resolve line).bind fun meaning ↦ ?_
  split
  · exact .refl _
  · cases meaning with
    | object id => exact .refl _
    | aggregate members => exact .refl _
    | property members =>
      dsimp only
      cases claim? members (.ofWord along term'.movement) cell.requirements with
      | some requirements => exact .refl _
      | none => exact agreeUpTo_error rfl

theorem agree_ofPattern {left left' : CellPattern} {right right' : Option CellPattern}
    (hleft : List.Forall₂ (PatternTerm.IsRespelled legend) left left')
    (hright : CellPattern.AreRespelled legend right.toList right'.toList) (line : Nat)
    (along : Direction) :
    AgreeUnquoted (ofPattern legend line along left right)
      (ofPattern legend line along left' right') := by
  refine (AgreeUpTo.foldlM (hleft.imp fun _ _ h ↦ agree_addLeft h line along) empty).bind
    fun cell ↦ ?_
  rcases forall₂_toList_cases hright with ⟨rfl, rfl⟩ | ⟨terms, terms', rfl, rfl, hterms⟩
  · exact .refl _
  · exact AgreeUpTo.foldlM (hterms.imp fun _ _ h ↦ agree_addRight h line along) cell

end RuleCell

namespace RuleDeclaration.IsRespelled

variable {rule other : RuleDeclaration}

theorem checkShape (h : IsRespelled legend rule other) : rule.checkShape = other.checkShape := by
  rw [RuleDeclaration.checkShape, RuleDeclaration.checkShape]
  rcases forall₂_toList_cases h.right with
    ⟨hright, hright'⟩ | ⟨cells, cells', hright, hright', hcells⟩
  · rw [hright, hright', h.commands_eq, h.line_eq]
  · rw [hright, hright']
    simp only [h.left.length_eq, hcells.length_eq, h.line_eq]

theorem cellPairs (h : IsRespelled legend rule other) :
    List.Forall₂ (fun pair pair' ↦ List.Forall₂ (PatternTerm.IsRespelled legend) pair.1 pair'.1 ∧
      CellPattern.AreRespelled legend pair.2.toList pair'.2.toList)
      rule.cellPairs other.cellPairs := by
  rw [RuleDeclaration.cellPairs, RuleDeclaration.cellPairs]
  rcases forall₂_toList_cases h.right with
    ⟨hright, hright'⟩ | ⟨cells, cells', hright, hright', hcells⟩
  · rw [hright, hright']
    exact List.forall₂_map_left_iff.mpr
      (List.forall₂_map_right_iff.mpr (h.left.imp fun _ _ hcell ↦ ⟨hcell, .nil⟩))
  · rw [hright, hright']
    have hsome : List.Forall₂ (fun right right' ↦ CellPattern.AreRespelled legend right.toList
        right'.toList) (cells.map some) (cells'.map some) :=
      List.forall₂_map_left_iff.mpr (List.forall₂_map_right_iff.mpr
        (hcells.imp fun _ _ hcell ↦ List.Forall₂.cons hcell .nil))
    exact forall₂_zip_zip h.left hsome

theorem inDirection (h : IsRespelled legend rule other) (direction : Direction) :
    AgreeUnquoted (rule.inDirection legend direction) (other.inDirection legend direction) := by
  rw [RuleDeclaration.inDirection, RuleDeclaration.inDirection, h.line_eq, h.commands_eq]
  refine (AgreeUpTo.mapM (h.cellPairs.imp ?_)).bind fun _ ↦ .refl _
  exact fun _ _ hpair ↦ RuleCell.agree_ofPattern hpair.1 hpair.2 other.line direction

theorem expand (h : IsRespelled legend rule other) :
    AgreeUnquoted (rule.expand legend) (other.expand legend) := by
  have hall : AgreeUnquoted (rule.inDirections legend) (other.inDirections legend) := by
    rw [RuleDeclaration.inDirections, RuleDeclaration.inDirections, h.checkShape, h.headings_eq]
    refine (AgreeUpTo.refl _).bind fun _ ↦ .mapM (List.forall₂_same.mpr fun direction _ ↦ ?_)
    exact h.inDirection direction
  exact hall.bind fun _ ↦ .refl _

end RuleDeclaration.IsRespelled

namespace RuleGroup

/-- How rules fall into groups depends only on which lines join the one before. -/
theorem collect_congr {declarations others : List RuleDeclaration}
    (h : List.Forall₂ (fun rule other ↦ rule.joinsPrevious = other.joinsPrevious) declarations
      others) (rules : List (List Rule)) :
    collect (declarations.zip rules) = collect (others.zip rules) := by
  refine congrArg List.reverse ?_
  generalize [] = groups
  induction h generalizing rules groups with
  | nil => rfl
  | @cons rule other declarations others hrule hrest ih =>
    cases rules with
    | nil => rfl
    | cons expanded rules =>
      have hadd : add groups (rule, expanded) = add groups (other, expanded) := by
        cases groups with
        | nil => rfl
        | cons group earlier => rw [add, add, hrule]
      rw [List.zip_cons_cons, List.zip_cons_cons, List.foldl_cons, List.foldl_cons, hadd]
      exact ih rules _

theorem agree_build {declarations others : List RuleDeclaration}
    (h : List.Forall₂ (RuleDeclaration.IsRespelled legend) declarations others) :
    AgreeUnquoted (build legend declarations) (build legend others) := by
  refine (AgreeUpTo.mapM (h.imp fun _ _ hrule ↦ hrule.expand)).bind fun rules ↦ ?_
  rw [collect_congr (h.imp fun _ _ hrule ↦ hrule.joinsPrevious_eq) rules]
  exact .refl _

end RuleGroup

/-! ## Layers -/

theorem LayerDeclaration.IsRespelled.agree_assignLayer {table : SymbolTable}
    {layer other : LayerDeclaration} (h : IsRespelled table.legend layer other) (place : Nat)
    (assignment : LayerAssignment) :
    AgreeUnquoted (LayerAssignment.assignLayer table assignment (layer, place))
      (LayerAssignment.assignLayer table assignment (other, place)) := by
  rw [LayerAssignment.assignLayer, LayerAssignment.assignLayer, h.line_eq]
  split
  · exact .refl _
  · exact AgreeUpTo.foldlM (h.names.imp fun _ _ hname assignment ↦
      (hname.resolve other.line).bind fun _ ↦ .refl _) assignment

theorem SymbolTable.agree_templates {table : SymbolTable} {layers others : List LayerDeclaration}
    (h : List.Forall₂ (LayerDeclaration.IsRespelled table.legend) layers others) :
    AgreeUnquoted (table.templates layers) (table.templates others) := by
  refine AgreeUpTo.bind (AgreeUpTo.foldlM ((forall₂_zipIdx h).imp ?_) _) fun _ ↦ .refl _
  rintro ⟨layer, place⟩ ⟨other, place'⟩ ⟨hlayer, rfl⟩ assignment
  exact hlayer.agree_assignLayer place assignment

/-! ## Win conditions -/

theorem WinCondition.agree_ofDeclaration {declaration other : WinDeclaration}
    (h : declaration.IsRespelled legend other) :
    AgreeUnquoted (ofDeclaration legend declaration) (ofDeclaration legend other) := by
  rw [ofDeclaration, ofDeclaration, h.line_eq, h.quantifier_eq]
  refine (h.subject.resolve other.line).bind fun subject ↦ ?_
  have htarget : AgreeUnquoted (declaration.target.mapM (legend.resolve other.line))
      (other.target.mapM (legend.resolve other.line)) := by
    rcases forall₂_toList_cases h.target with ⟨hnone, hnone'⟩ | ⟨name, name', hsome, hsome', hname⟩
    · rw [hnone, hnone']
      exact .refl _
    · rw [hsome, hsome']
      exact (hname.resolve other.line).bind fun _ ↦ .refl _
  exact htarget.bind fun _ ↦ .refl _

/-! ## Levels -/

namespace Board

theorem agree_drawnObjects {symbol other : String} (h : legend.Identifies symbol other)
    (line : Nat) :
    AgreeUnquoted (drawnObjects legend line symbol) (drawnObjects legend line other) := by
  refine (h.resolve line).bind fun meaning ↦ ?_
  cases meaning with
  | object id => exact .refl _
  | aggregate members => exact .refl _
  | property members => exact agreeUpTo_error rfl

/-- The symbol that asks for an object only matters to what an error quotes. -/
theorem agree_drawObject (objects : Array Template) (line : Nat) (symbol other : String)
    (cell : Cell) (id : ObjectId) :
    AgreeUnquoted (drawObject objects line symbol cell id)
      (drawObject objects line other cell id) := by
  rw [drawObject, drawObject]
  split
  · exact .refl _
  · split
    · exact .refl _
    · split
      · exact .refl _
      · exact agreeUpTo_error rfl

theorem agree_drawSymbol {c c' : Char} (h : legend.Identifies (.ofList [c]) (.ofList [c']))
    (objects : Array Template) (line y x : Nat) (board : Board) :
    AgreeUnquoted (drawSymbol legend objects line y board (c, x))
      (drawSymbol legend objects line y board (c', x)) := by
  refine (agree_drawnObjects h line).bind fun ids ↦ ?_
  dsimp only
  cases board.cell? ⟨x, y⟩ with
  | none => exact .refl _
  | some cell =>
    dsimp only
    refine AgreeUpTo.bind (AgreeUpTo.foldlM (List.forall₂_same.mpr fun id _ cell ↦ ?_) cell)
      fun _ ↦ .refl _
    exact agree_drawObject objects line _ _ cell id

theorem agree_drawRow {row row' : String}
    (h : List.Forall₂ (fun c c' ↦ legend.Identifies (.ofList [c]) (.ofList [c'])) row.toList
      row'.toList) (objects : Array Template) (line y : Nat) (board : Board) :
    AgreeUnquoted (drawRow legend objects line board (row, y))
      (drawRow legend objects line board (row', y)) := by
  refine AgreeUpTo.foldlM ((forall₂_zipIdx h).imp ?_) board
  rintro ⟨c, x⟩ ⟨c', x'⟩ ⟨hc, rfl⟩ board
  exact agree_drawSymbol hc objects (line + y) y x board

theorem agree_ofDrawing {drawing other : Drawing} (h : drawing.IsRespelled legend other)
    (objects : Array Template) (layerCount place : Nat) :
    AgreeUnquoted (ofDrawing legend objects layerCount (drawing, place))
      (ofDrawing legend objects layerCount (other, place)) := by
  have hlengths : drawing.rows.map String.length = other.rows.map String.length := by
    rw [← List.forall₂_eq_eq_eq, List.forall₂_map_left_iff, List.forall₂_map_right_iff]
    refine h.rows.imp fun row row' hrow ↦ ?_
    rw [← String.length_toList, ← String.length_toList, hrow.length_eq]
  have hwidth : drawing.rows.head?.map String.length = other.rows.head?.map String.length := by
    rw [← List.head?_map, hlengths, List.head?_map]
  have hodd : ∀ width : Nat, (drawing.rows.findIdx? fun row ↦ row.length ≠ width) =
      other.rows.findIdx? fun row ↦ row.length ≠ width := by
    intro width
    have hmap : ∀ rows : List String, (rows.findIdx? fun row ↦ row.length ≠ width) =
        (rows.map String.length).findIdx? (· ≠ width) := by
      intro rows
      rw [List.findIdx?_map]
      rfl
    rw [hmap, hmap, hlengths]
  rw [ofDrawing, ofDrawing, hwidth, hodd, h.rows.length_eq, h.line_eq]
  split
  · exact .refl _
  · refine AgreeUpTo.bind (AgreeUpTo.foldlM ((forall₂_zipIdx h.rows).imp ?_) _) fun _ ↦ .refl _
    rintro ⟨row, y⟩ ⟨row', y'⟩ ⟨hrow, rfl⟩ board
    exact agree_drawRow hrow objects other.line y board

end Board

/-! ## Games -/

namespace Document

variable {document other : Document}

theorem UsesAlike.agree_ofTable {table : SymbolTable} (h : UsesAlike table.legend document other)
    (hsettings : document.settings = other.settings) :
    AgreeUnquoted (Game.ofTable document table) (Game.ofTable other table) := by
  rw [Game.ofTable, Game.ofTable, h.layers.length_eq, hsettings]
  have hconditions : AgreeUnquoted
      (document.winConditions.mapM (WinCondition.ofDeclaration table.legend))
      (other.winConditions.mapM (WinCondition.ofDeclaration table.legend)) :=
    .mapM (h.winConditions.imp fun _ _ ↦ WinCondition.agree_ofDeclaration)
  have hlevels : ∀ objects, AgreeUnquoted
      (document.levels.zipIdx.mapM (Board.ofDrawing table.legend objects other.layers.length))
      (other.levels.zipIdx.mapM (Board.ofDrawing table.legend objects other.layers.length)) := by
    refine fun objects ↦ .mapM ((forall₂_zipIdx h.levels).imp ?_)
    rintro ⟨drawing, place⟩ ⟨other', place'⟩ ⟨hdrawing, rfl⟩
    exact Board.agree_ofDrawing hdrawing objects other.layers.length place
  refine (SymbolTable.agree_templates h.layers).bind fun objects ↦ ?_
  refine (AgreeUpTo.refl _).bind fun player ↦ ?_
  refine (RuleGroup.agree_build h.rules).bind fun groups ↦ ?_
  exact hconditions.bind fun conditions ↦ (hlevels objects).bind fun levels ↦ .refl _

/-- **Spelling does not matter.** Two documents that differ only in how names are spelled define the
same game with the same messages, or neither defines one: then both fail in the same way, for the
same fault in the same line, and at most the name that is quoted is another. -/
theorem IsRespelled.defines_alike (h : document.IsRespelled other) (log : Log) :
    (∃ game log', (Game.ofDocument document).runOn log = (.ok game, log') ∧
      (Game.ofDocument other).runOn log = (.ok game, log')) ∨
    ∃ failure failure' log', (Game.ofDocument document).runOn log = (.error failure, log') ∧
      (Game.ofDocument other).runOn log = (.error failure', log') ∧
      failure.map DefinitionError.anonymous = failure'.map DefinitionError.anonymous := by
  rw [Game.ofDocument, Game.ofDocument, ← h.objects_eq, ← h.legend_eq]
  rcases hbuild : (SymbolTable.build document.objects document.legend).runOn log with
    ⟨failure | table, log'⟩
  · exact .inr ⟨failure, failure, log', Logged.runOn_bind_of_error hbuild,
      Logged.runOn_bind_of_error hbuild, rfl⟩
  · rw [Logged.runOn_bind_of_ok hbuild, Logged.runOn_bind_of_ok hbuild]
    have hagree := (h.uses table ⟨log, log', hbuild⟩).agree_ofTable h.settings_eq
    rcases agreeUpTo_iff.mp hagree with ⟨game, hgame, hgame'⟩ | ⟨e, e', he, he', heq⟩
    · have hrefuse : (Logged.refuse (.ok game : Except DefinitionError Game)).runOn log' =
          (.ok game, log') := rfl
      rw [hgame, hgame', Logged.runOn_bind_of_ok hrefuse]
      split
      · exact .inl ⟨game, _, rfl, rfl⟩
      · exact .inl ⟨game, _, rfl, rfl⟩
    · rw [he, he']
      exact .inr ⟨.refused e, .refused e', log', rfl, rfl, congrArg Failure.refused heq⟩

/-- A player who pushes crates and walls. -/
def warehouse : Document where
  settings := []
  objects := [⟨1, "Background", ["."], [], []⟩, ⟨3, "Player", ["P"], [], []⟩,
    ⟨5, "Crate", ["*"], [], []⟩, ⟨7, "Wall", ["#"], [], []⟩]
  legend := [⟨9, "Hero", .alone, ["p"]⟩, ⟨10, "Heavy", .either, ["Crate", "Wall"]⟩,
    ⟨11, "Solid", .either, ["#", "*"]⟩]
  layers := [⟨13, ["Background"]⟩, ⟨14, ["Player", "Heavy"]⟩]
  rules := [⟨16, false, [],
    [[⟨false, some (.relative .ahead), "Player"⟩], [⟨false, none, "Heavy"⟩]],
    some [[⟨false, some (.relative .ahead), "Player"⟩],
      [⟨false, some (.relative .ahead), "Heavy"⟩]], []⟩]
  winConditions := [⟨18, .no, "Crate", some "Background"⟩]
  levels := [⟨20, ["P*#"]⟩]

/-- The same with the names in other cases, with glyphs and aliases in place of names, and with
another property of the same objects. -/
def respelledWarehouse : Document :=
  { warehouse with
    layers := [⟨13, ["BACKGROUND"]⟩, ⟨14, ["Hero", "Solid"]⟩]
    rules := [⟨16, false, [],
      [[⟨false, some (.relative .ahead), "hero"⟩], [⟨false, none, "SOLID"⟩]],
      some [[⟨false, some (.relative .ahead), "p"⟩],
        [⟨false, some (.relative .ahead), "heavy"⟩]], []⟩]
    winConditions := [⟨18, .no, "*", some "."⟩]
    levels := [⟨20, ["p*#"]⟩] }

theorem isRespelled_warehouse : warehouse.IsRespelled respelledWarehouse where
  settings_eq := rfl
  objects_eq := rfl
  legend_eq := rfl
  uses table htable := by
    have hresult := (SymbolTable.returns_build _ _).gives_iff.mp htable
    have hall : (SymbolTable.buildResult warehouse.objects warehouse.legend).toOption.all
        (fun table ↦ decide (UsesAlike table.legend warehouse respelledWarehouse)) = true := by
      decide +kernel
    rw [hresult] at hall
    exact of_decide_eq_true hall

/-- Both spellings of the warehouse define one game. -/
theorem defines_alike_warehouse : warehouse.IsRespelled respelledWarehouse ∧
    ∃ game log, (Game.ofDocument warehouse).runOn .empty = (.ok game, log) ∧
      (Game.ofDocument respelledWarehouse).runOn .empty = (.ok game, log) := by
  refine ⟨isRespelled_warehouse, ?_⟩
  rcases isRespelled_warehouse.defines_alike .empty with hgame | ⟨failure, -, log, hfails, -⟩
  · exact hgame
  · have hdefined : (Game.ofDocument warehouse).yields .empty (fun _ ↦ true) = true := by
      decide +kernel
    obtain ⟨game, log', hgame, -⟩ := Logged.exists_of_yields hdefined
    cases hfails.symm.trans hgame

end Document

end TilePuzzle
