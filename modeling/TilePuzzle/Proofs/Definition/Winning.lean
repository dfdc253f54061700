import TilePuzzle.Proofs.Definition.Game

/-!
# What win conditions say

A win condition speaks of cells that hold a name, and so does a rule: to a rule, a cell holds a name
if the pattern of just this name matches it. For an aggregate this takes all the members. A win
condition is content with any object that the name may stand for, and so with one member of an
aggregate.

## Where the two readings agree

They agree about a name unless it is an aggregate of several objects, and then they disagree about
some cell. So a condition that mentions no such aggregate says what the same names say in a rule.

## One condition, two readings

`Says` is what a condition says of a board, with the reading of names left open. The engine's answer
is the condition with the one reading (`isSatisfied_iff`), and what a reader of the rules expects is
the condition with the other.
-/

namespace TilePuzzle

/-! ## Cells -/

namespace Cell

variable {cell : Cell}

theorem holdsAny_iff {set : ObjectSet} :
    cell.holdsAny set = true ↔ ∃ id ∈ cell.objects, set.contains id = true :=
  List.any_eq_true

@[simp] theorem holdsAny_single {id : ObjectId} :
    cell.holdsAny (.single id) = true ↔ id ∈ cell.objects := by
  simp [holdsAny_iff, ObjectSet.single, ObjectSet.contains]

theorem mem_objects_put_blank {layerCount : Nat} {layer : LayerId} {occupant : Occupant}
    (hbound : layerCount ≤ LayerId.bound) (hlayer : layer.index < layerCount) {id : ObjectId} :
    id ∈ ((blank layerCount).put layer occupant).objects ↔ id = occupant.object := by
  have hlength : ((blank layerCount).put layer occupant).slots.length ≤ LayerId.bound := by
    rwa [put, length_setSlot, blank, List.length_replicate]
  rw [objects, List.mem_map]
  constructor
  · rintro ⟨⟨other, found⟩, hfound, rfl⟩
    rw [mem_occupants hlength] at hfound
    rcases occupant?_setSlot_eq_some hfound with ⟨-, hsome⟩ | hblank
    · rw [Option.some.inj hsome]
    · rw [occupant?_eq_some_iff, blank, List.getElem?_replicate] at hblank
      split at hblank <;> simp at hblank
  · rintro rfl
    refine ⟨(layer, occupant), ?_, rfl⟩
    rw [mem_occupants hlength]
    refine occupant?_setSlot_self ?_ _
    rwa [blank, List.length_replicate]

end Cell

/-! ## Names in cells -/

namespace Legend

/-- A cell holds a name: the pattern of just this name matches it. -/
def Holds (legend : Legend) (name : String) (cell : Cell) : Prop :=
  ∃ line along pattern,
    RuleCell.ofPattern legend line along [⟨false, none, name⟩] none = .ok pattern ∧
      (pattern.match? cell).isSome = true

/-- A cell holds an object that a name may stand for. -/
def HoldsPart (legend : Legend) (name : String) (cell : Cell) : Prop :=
  ∃ meaning, legend.lookup? name = some meaning ∧ cell.holdsAny meaning.objects = true

/-- A name stands for an aggregate whose members are not all one object. -/
def IsComposite (legend : Legend) (name : String) : Prop :=
  ∃ members, legend.lookup? name = some (.aggregate members) ∧ (ObjectSet.ofList members).size ≠ 1

end Legend

theorem isSome_mapM_iff {α β : Type} {f : α → Option β} {xs : List α} :
    (xs.mapM f).isSome = true ↔ ∀ x ∈ xs, (f x).isSome = true := by
  induction xs with
  | nil => simp
  | cons x xs ih =>
    rw [List.forall_mem_cons, ← ih, List.mapM_cons]
    cases f x with
    | none => simp
    | some y => cases xs.mapM f <;> simp

/-- A requirement that asks for no intent is met where a member of its set is. -/
theorem Requirement.isSome_bind?_any (set : ObjectSet) (fate : Fate) (cell : Cell) :
    ((⟨set, .any, fate⟩ : Requirement).bind? cell.occupants).isSome = cell.holdsAny set := by
  rw [bind?, Option.isSome_map, List.isSome_find?, Cell.holdsAny, Cell.objects, List.any_map]
  simp only [isMetBy, MovementTest.accepts, Bool.and_true, Function.comp_def]

namespace Legend

variable {legend : Legend} {name : String} {meaning : Meaning} {cell : Cell}

theorem ofPattern_name (h : legend.lookup? name = some meaning) (line : Nat) (along : Direction) :
    RuleCell.ofPattern legend line along [⟨false, none, name⟩] none = .ok
      ⟨(RuleCell.requiredSets meaning).map fun set ↦ ⟨set, .any, .keep .unchanged⟩,
        [], [], []⟩ := by
  have hresolve : legend.resolve line name = .ok meaning := resolve_eq_ok_iff.mpr h
  have hleft : RuleCell.addLeft legend line along .empty ⟨false, none, name⟩ = .ok
      ⟨(RuleCell.requiredSets meaning).map fun set ↦ ⟨set, .any, .remove⟩, [], [], []⟩ := by
    rw [RuleCell.addLeft, hresolve]
    rfl
  rw [RuleCell.ofPattern, List.foldlM_cons, hleft]
  change Except.ok _ = Except.ok _
  rw [RuleCell.keepAll, List.map_map]
  rfl

theorem holds_iff (h : legend.lookup? name = some meaning) :
    legend.Holds name cell ↔ ∀ set ∈ RuleCell.requiredSets meaning, cell.holdsAny set = true := by
  have hmatch : ∀ pattern : RuleCell,
      pattern = ⟨(RuleCell.requiredSets meaning).map fun set ↦ ⟨set, .any, .keep .unchanged⟩,
        [], [], []⟩ →
      ((pattern.match? cell).isSome = true ↔
        ∀ set ∈ RuleCell.requiredSets meaning, cell.holdsAny set = true) := by
    rintro pattern rfl
    rw [RuleCell.match?]
    simp only [List.any_nil, Bool.false_eq_true, if_false, isSome_mapM_iff, List.forall_mem_map,
      Requirement.isSome_bind?_any]
  constructor
  · rintro ⟨line, along, pattern, hpattern, hcell⟩
    rw [ofPattern_name h] at hpattern
    exact (hmatch pattern (Except.ok.inj hpattern).symm).mp hcell
  · intro hcell
    exact ⟨0, .up, _, ofPattern_name h 0 .up, (hmatch _ rfl).mpr hcell⟩

theorem holdsPart_iff (h : legend.lookup? name = some meaning) :
    legend.HoldsPart name cell ↔ cell.holdsAny meaning.objects = true := by
  rw [HoldsPart, h]
  simp

/-- About all names but composite ones, the two readings agree. -/
theorem holds_iff_holdsPart (h : legend.lookup? name = some meaning)
    (hname : ¬legend.IsComposite name) : legend.Holds name cell ↔ legend.HoldsPart name cell := by
  rw [holds_iff h, holdsPart_iff h]
  cases meaning with
  | object id => simp [RuleCell.requiredSets, Meaning.objects]
  | property members => simp [RuleCell.requiredSets, Meaning.objects]
  | aggregate members =>
    have hsize : (ObjectSet.ofList members).size = 1 :=
      not_not.mp fun hsize ↦ hname ⟨members, h, hsize⟩
    obtain ⟨id, hid⟩ := List.length_eq_one_iff.mp hsize
    have hmem : ∀ {other}, other ∈ members ↔ other = id := by
      intro other
      rw [← ObjectSet.mem_ids_ofList, hid, List.mem_singleton]
    rw [RuleCell.requiredSets, List.forall_mem_map, Meaning.objects, Cell.holdsAny_iff]
    simp [Cell.holdsAny_single, hmem, ObjectSet.contains_ofList]

end Legend

/-! ## Conditions -/

namespace WinDeclaration

/-- The names that a win condition mentions. -/
def names (declaration : WinDeclaration) : List String :=
  declaration.subject :: declaration.target.toList

/-- What a win condition says of a board, where `holds` tells which names a cell holds. -/
def Says (declaration : WinDeclaration) (holds : String → Cell → Prop) (board : Board) : Prop :=
  match declaration.quantifier with
  | .all => ∀ cell ∈ board.cells, holds declaration.subject cell →
      ∀ target ∈ declaration.target, holds target cell
  | .no => ¬∃ cell ∈ board.cells, ∀ name ∈ declaration.names, holds name cell
  | .any => ∃ cell ∈ board.cells, ∀ name ∈ declaration.names, holds name cell

variable {declaration : WinDeclaration} {board : Board}

theorem says_congr {holds holds' : String → Cell → Prop}
    (h : ∀ name ∈ declaration.names, ∀ cell, holds name cell ↔ holds' name cell) :
    declaration.Says holds board ↔ declaration.Says holds' board := by
  have hcell : ∀ cell, (∀ name ∈ declaration.names, holds name cell) ↔
      ∀ name ∈ declaration.names, holds' name cell :=
    fun cell ↦ forall₂_congr fun name hname ↦ h name hname cell
  have htarget : ∀ target ∈ declaration.target, ∀ cell, holds target cell ↔ holds' target cell :=
    fun target ht ↦ h target (List.mem_cons_of_mem _ (Option.mem_toList.mpr ht))
  rw [Says, Says]
  cases declaration.quantifier with
  | all =>
    refine forall₂_congr fun cell _ ↦ imp_congr (h _ List.mem_cons_self cell) ?_
    exact forall₂_congr fun target ht ↦ htarget target ht cell
  | no => simp only [hcell]
  | any => simp only [hcell]

end WinDeclaration

namespace WinCondition

variable {legend : Legend} {declaration : WinDeclaration} {condition : WinCondition}

theorem ofDeclaration_eq_ok (h : ofDeclaration legend declaration = .ok condition) :
    condition.quantifier = declaration.quantifier ∧
      (∃ meaning, legend.lookup? declaration.subject = some meaning ∧
        condition.subject = meaning.objects) ∧
      (declaration.target = none ∧ condition.target = none ∨
        ∃ name meaning, declaration.target = some name ∧ legend.lookup? name = some meaning ∧
          condition.target = some meaning.objects) := by
  obtain ⟨subject, hsubject, h⟩ := bind_eq_ok_iff.mp h
  obtain ⟨target, htarget, h⟩ := bind_eq_ok_iff.mp h
  obtain rfl := pure_eq_ok_iff.mp h
  refine ⟨rfl, ⟨subject, Legend.resolve_eq_ok_iff.mp hsubject, rfl⟩, ?_⟩
  cases hname : declaration.target with
  | none =>
    rw [hname] at htarget
    cases htarget
    exact .inl ⟨rfl, rfl⟩
  | some name =>
    rw [hname] at htarget
    obtain ⟨found, hfound, heq⟩ := bind_eq_ok_iff.mp htarget
    cases pure_eq_ok_iff.mp heq
    exact .inr ⟨name, found, rfl, Legend.resolve_eq_ok_iff.mp hfound, rfl⟩

theorem exists_lookup?_of_ofDeclaration (h : ofDeclaration legend declaration = .ok condition) :
    ∀ name ∈ declaration.names, ∃ meaning, legend.lookup? name = some meaning := by
  obtain ⟨-, ⟨subject, hsubject, -⟩, htarget⟩ := ofDeclaration_eq_ok h
  rw [WinDeclaration.names, List.forall_mem_cons]
  refine ⟨⟨subject, hsubject⟩, ?_⟩
  obtain ⟨hnone, -⟩ | ⟨target, meaning, hsome, htarget, -⟩ := htarget
  · simp [hnone]
  · simp [hsome, htarget]

theorem onTarget_iff (h : ofDeclaration legend declaration = .ok condition) (cell : Cell) :
    condition.onTarget cell = true ↔
      ∀ target ∈ declaration.target, legend.HoldsPart target cell := by
  obtain ⟨-, -, ⟨hnone, htarget⟩ | ⟨name, meaning, hname, hlookup, htarget⟩⟩ :=
    ofDeclaration_eq_ok h
  · simp [onTarget, htarget, hnone]
  · simp [onTarget, htarget, hname, Legend.holdsPart_iff hlookup]

theorem isSatisfied_iff (h : ofDeclaration legend declaration = .ok condition) (board : Board) :
    condition.isSatisfied board = true ↔ declaration.Says legend.HoldsPart board := by
  obtain ⟨hquantifier, ⟨meaning, hlookup, hsubject⟩, -⟩ := ofDeclaration_eq_ok h
  have hholds : ∀ cell : Cell,
      cell.holdsAny condition.subject = true ↔ legend.HoldsPart declaration.subject cell := by
    intro cell
    rw [hsubject, Legend.holdsPart_iff hlookup]
  have hnames : ∀ cell, (∀ name ∈ declaration.names, legend.HoldsPart name cell) ↔
      cell.holdsAny condition.subject = true ∧ condition.onTarget cell = true := by
    intro cell
    rw [hholds, onTarget_iff h, WinDeclaration.names, List.forall_mem_cons]
    simp
  have hany : (board.cells.toList.filter fun cell ↦ cell.holdsAny condition.subject).any
      condition.onTarget = true ↔
      ∃ cell ∈ board.cells, ∀ name ∈ declaration.names, legend.HoldsPart name cell := by
    simp only [List.any_filter, List.any_eq_true, Array.mem_toList_iff, Bool.and_eq_true, hnames]
  rw [isSatisfied, WinDeclaration.Says, hquantifier]
  cases declaration.quantifier with
  | all =>
    simp only [List.all_eq_true, List.mem_filter, Array.mem_toList_iff, and_imp, hholds,
      onTarget_iff h]
  | no =>
    dsimp only
    rw [← hany, Bool.not_eq_true', Bool.not_eq_true]
  | any => exact hany

end WinCondition

/-! ## Games -/

namespace Game

variable {document : Document} {game : Game}

/-- About a composite name the two readings disagree on some cell: one with a single member, or if
there is no member, one without objects. -/
theorem IsClosed.exists_not_holds_iff (hgame : game.IsClosed) {name : String}
    (h : game.legend.IsComposite name) :
    ∃ cell : Cell, cell.Fits game ∧
      ¬(game.legend.Holds name cell ↔ game.legend.HoldsPart name cell) := by
  obtain ⟨members, hlookup, hsize⟩ := h
  simp only [Legend.holds_iff hlookup, RuleCell.requiredSets, List.forall_mem_map,
    Cell.holdsAny_single]
  simp only [Legend.holdsPart_iff hlookup, Meaning.objects, Cell.holdsAny_iff,
    ObjectSet.contains_ofList]
  cases members with
  | nil =>
    refine ⟨.blank game.layerCount, Cell.fits_blank game, fun hiff ↦ ?_⟩
    obtain ⟨id, -, hid⟩ := hiff.mp fun id hid ↦ absurd hid List.not_mem_nil
    exact absurd hid List.not_mem_nil
  | cons id members =>
    have hlt : id.index < game.objects.size := hgame.legend _ _ hlookup id List.mem_cons_self
    have htemplate := Array.getElem?_eq_getElem hlt
    have hlayer : game.layer? id = some game.objects[id.index].layer :=
      Game.layer?_of_template? htemplate
    have hfits : ((Cell.blank game.layerCount).put game.objects[id.index].layer
        (.still id)).Fits game := (Cell.fits_blank game).put hlayer
    have hobjects : ∀ {other}, other ∈ ((Cell.blank game.layerCount).put
        game.objects[id.index].layer (.still id)).objects ↔ other = id :=
      Cell.mem_objects_put_blank hgame.objects.layerCount_le
        (hgame.isLayered.layer_lt _ _ hlayer)
    refine ⟨_, hfits, fun hiff ↦ hsize ?_⟩
    have hall := hiff.mpr ⟨id, hobjects.mpr rfl, List.mem_cons_self⟩
    -- all members are the one that is there
    have hsingle : ObjectSet.ofList (id :: members) = .single id := by
      refine ObjectSet.eq_of_contains_iff fun other ↦ ?_
      rw [ObjectSet.contains_ofList]
      simp only [ObjectSet.single, ObjectSet.contains, List.contains_iff_mem, List.mem_singleton]
      exact ⟨fun hother ↦ hobjects.mp (hall other hother), fun hother ↦ hother ▸ List.mem_cons_self⟩
    rw [hsingle]
    rfl

theorem forall₂_ofDeclaration (h : (ofDocument document).Gives game) :
    List.Forall₂ (fun declaration condition ↦
        WinCondition.ofDeclaration game.legend declaration = .ok condition)
      document.winConditions game.winConditions := by
  obtain ⟨table, -, h⟩ := ofDocument_gives h
  obtain ⟨objects, -, h⟩ := bind_eq_ok_iff.mp h
  obtain ⟨player, -, h⟩ := bind_eq_ok_iff.mp h
  obtain ⟨groups, -, h⟩ := bind_eq_ok_iff.mp h
  obtain ⟨conditions, hconditions, h⟩ := bind_eq_ok_iff.mp h
  obtain ⟨levels, -, h⟩ := bind_eq_ok_iff.mp h
  obtain rfl := pure_eq_ok_iff.mp h
  exact forall₂_of_mapM_eq_ok hconditions

/-- **What the win conditions of a game say.** A condition is satisfied where it is true of what its
names may stand for, and if none of them is composite, where it is true of the names as rules hold
them; about any name the two readings agree on all cells just if it is not composite. A board is won
if there are conditions and all are satisfied. -/
theorem winConditions_say (h : (ofDocument document).Gives game) :
    List.Forall₂ (fun declaration condition ↦ ∀ board : Board,
        (condition.isSatisfied board = true ↔ declaration.Says game.legend.HoldsPart board) ∧
        ((∀ name ∈ declaration.names, ¬game.legend.IsComposite name) →
          (condition.isSatisfied board = true ↔ declaration.Says game.legend.Holds board)))
      document.winConditions game.winConditions ∧
    (∀ name meaning, game.legend.lookup? name = some meaning →
      ((∀ cell : Cell, cell.Fits game →
          (game.legend.Holds name cell ↔ game.legend.HoldsPart name cell)) ↔
        ¬game.legend.IsComposite name)) ∧
    ∀ board, game.isWon board = true ↔ game.winConditions ≠ [] ∧
      ∀ condition ∈ game.winConditions, condition.isSatisfied board = true := by
  have hclosed : game.IsClosed := IsDefined.isClosed ⟨document, h⟩
  refine ⟨(forall₂_ofDeclaration h).imp fun declaration condition hread board ↦ ?_, ?_, ?_⟩
  · have hsatisfied := WinCondition.isSatisfied_iff hread board
    refine ⟨hsatisfied, fun hnames ↦ hsatisfied.trans ?_⟩
    refine WinDeclaration.says_congr fun name hname cell ↦ ?_
    obtain ⟨meaning, hlookup⟩ := WinCondition.exists_lookup?_of_ofDeclaration hread name hname
    exact (Legend.holds_iff_holdsPart hlookup (hnames name hname)).symm
  · intro name meaning hlookup
    constructor
    · intro hagree hname
      obtain ⟨cell, hcell, hdisagree⟩ := hclosed.exists_not_holds_iff hname
      exact hdisagree (hagree cell hcell)
    · intro hname cell _
      exact Legend.holds_iff_holdsPart hlookup hname
  · intro board
    simp [isWon, WinCondition.allSatisfied]

/-! ## A lamp beside the player -/

/-- A player and a lamp in different cells. The two together are called lit, and the level asks for
something that is lit. -/
def porch : String :=
  "OBJECTS\nPlayer P\n\nLamp L\nLEGEND\nLit = Player and Lamp\nCOLLISIONLAYERS\nPlayer\nLamp\n" ++
    "WINCONDITIONS\nsome Lit\nLEVELS\nPL\n"

theorem exists_isWon_porch : ∃ (document : Document) (game : Game) (board : Board),
    (Document.read porch).Gives document ∧ (ofDocument document).Gives game ∧
      game.level? 0 = some board ∧ game.isWon board = true ∧
      (∃ line, document.winConditions = [⟨line, .any, "Lit", none⟩]) ∧
      ∀ cell ∈ board.cells, ¬game.legend.Holds "Lit" cell := by
  have hread : (Document.read porch).yields .empty (fun document ↦
      (ofDocument document).yields .empty fun game ↦ (game.level? 0).any fun board ↦
        game.isWon board &&
        decide (document.winConditions = [⟨11, .any, "Lit", none⟩]) &&
        decide (game.legend.lookup? "Lit" = some (.aggregate [⟨0⟩, ⟨1⟩])) &&
        board.cells.all fun cell ↦
          !(cell.holdsAny (.single ⟨0⟩) && cell.holdsAny (.single ⟨1⟩))) = true := by
    decide +kernel
  obtain ⟨document, log, hdocument, hread⟩ := Logged.exists_of_yields hread
  obtain ⟨game, log', hgame, hread⟩ := Logged.exists_of_yields hread
  obtain ⟨board, hboard, htest⟩ := (Option.any_eq_true _ _).mp hread
  simp only [Bool.and_eq_true, decide_eq_true_iff, Array.all_eq_true_iff_forall_mem] at htest
  obtain ⟨⟨⟨hwon, hconditions⟩, hlookup⟩, hcells⟩ := htest
  refine ⟨document, game, board, ⟨.empty, log, hdocument⟩, ⟨.empty, log', hgame⟩, hboard, hwon,
    ⟨11, hconditions⟩, fun cell hcell ↦ ?_⟩
  rw [Legend.holds_iff hlookup]
  have hcell := hcells cell hcell
  rw [Bool.not_eq_true'] at hcell
  intro hall
  simp [hall, RuleCell.requiredSets] at hcell

/-- The condition of the porch is satisfied because a cell holds a part of what is lit. -/
theorem winConditions_say_porch : ∃ (document : Document) (game : Game) (board : Board),
    (Document.read porch).Gives document ∧ (ofDocument document).Gives game ∧
      game.isWon board = true ∧ document.winConditions ≠ [] ∧
      ∀ declaration ∈ document.winConditions, declaration.Says game.legend.HoldsPart board := by
  obtain ⟨document, game, board, hdocument, hgame, -, hwon, ⟨line, hconditions⟩, -⟩ :=
    exists_isWon_porch
  obtain ⟨hsay, -, hall⟩ := winConditions_say hgame
  refine ⟨document, game, board, hdocument, hgame, hwon, by simp [hconditions], ?_⟩
  rw [hconditions] at hsay ⊢
  obtain ⟨condition, rest, hcondition, hrest, heq⟩ := List.forall₂_cons_left_iff.mp hsay
  rw [List.forall_mem_singleton]
  exact (hcondition board).1.mp (((hall board).mp hwon).2 condition (heq ▸ List.mem_cons_self))

/-- It is not so that every condition says what its names say in rules: one member of an aggregate
satisfies it. -/
theorem not_forall_winConditions_say : ¬∀ (source : String) (document : Document) (game : Game),
    (Document.read source).Gives document → (ofDocument document).Gives game →
      List.Forall₂ (fun declaration condition ↦ ∀ board : Board, board.Fits game →
          (condition.isSatisfied board = true ↔ declaration.Says game.legend.Holds board))
        document.winConditions game.winConditions := by
  intro h
  obtain ⟨document, game, board, hdocument, hgame, hboard, hwon, ⟨line, hconditions⟩, hcells⟩ :=
    exists_isWon_porch
  have hfits : board.Fits game :=
    ((IsDefined.isClosed ⟨document, hgame⟩).levels 0 board hboard).2.1
  have hclaim := h porch document game hdocument hgame
  rw [hconditions] at hclaim
  obtain ⟨condition, rest, hcondition, -, heq⟩ := List.forall₂_cons_left_iff.mp hclaim
  rw [isWon, WinCondition.allSatisfied, heq, Bool.and_eq_true, List.all_cons, Bool.and_eq_true]
    at hwon
  obtain ⟨cell, hcell, hholds⟩ := (hcondition board hfits).mp hwon.2.1
  exact hcells cell hcell (hholds "Lit" List.mem_cons_self)

end Game

end TilePuzzle
