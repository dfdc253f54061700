import TilePuzzle.Proofs.Definition.Boards
import TilePuzzle.Proofs.Definition.Rules
import TilePuzzle.Proofs.Document.Sections
import TilePuzzle.Session

/-!
# Games are closed

A document is taken apart in several stages, and each stage hands numbers of objects and layers on
to the next. Put together, the stages give a game that is *closed*: wherever the game mentions an
object, it is one of its own objects, and its levels start from boards that fit it.

## Rules have cells

A rule has as many cells as the left pattern of its line. A document that is read from a text has no
pattern without cells, so neither has the game.
-/

namespace TilePuzzle

/-! ## Closed games -/

/-- The game mentions no object but its own, and its levels are boards for it. -/
structure Game.IsClosed (game : Game) : Prop where
  /-- Object `k` has number `k` and stands on a layer of the game. -/
  objects : Template.Placed game.layerCount game.objects
  legend : game.legend.Within game.objects.size
  player : game.player.Within game.objects.size
  player_isEmpty : game.player.isEmpty = false
  groups_ne_nil : ∀ group ∈ game.groups, group.rules ≠ []
  rules : ∀ group ∈ game.groups, ∀ rule ∈ group.rules, rule.Within game.objects.size
  subjects : ∀ condition ∈ game.winConditions, condition.subject.Within game.objects.size
  targets : ∀ condition ∈ game.winConditions, ∀ target, condition.target = some target →
    target.Within game.objects.size
  levels : ∀ place board, game.level? place = some board →
    board.index = place ∧ board.Fits game ∧ board.IsStill

theorem Game.IsClosed.isLayered {game : Game} (h : game.IsClosed) : game.IsLayered :=
  h.objects.isLayered

/-- Some document defines the game. -/
def Game.IsDefined (game : Game) : Prop :=
  ∃ document : Document, (Game.ofDocument document).Gives game

/-! ## Parts of a definition -/

namespace Game

variable {count : Nat} {legend : Legend}

theorem playerOf_eq_ok (hlegend : legend.Within count) {player : ObjectSet}
    (h : playerOf legend = .ok player) : player.Within count ∧ player.isEmpty = false := by
  rw [playerOf] at h
  split at h
  · simp at h
  · next meaning hlookup =>
    split at h
    · simp at h
    · next hempty =>
      cases h
      exact ⟨(hlegend.lookup? hlookup).objects, eq_false_of_ne_true hempty⟩

theorem within_ofDeclaration (hlegend : legend.Within count) {declaration : WinDeclaration}
    {condition : WinCondition} (h : WinCondition.ofDeclaration legend declaration = .ok condition) :
    condition.subject.Within count ∧
      ∀ target, condition.target = some target → target.Within count := by
  obtain ⟨subject, hsubject, h⟩ := bind_eq_ok_iff.mp h
  obtain ⟨target, htarget, h⟩ := bind_eq_ok_iff.mp h
  obtain rfl := pure_eq_ok_iff.mp h
  refine ⟨(hlegend.resolve hsubject).objects, fun objects hobjects ↦ ?_⟩
  obtain ⟨meaning, rfl, rfl⟩ := Option.map_eq_some_iff.mp hobjects
  cases hname : declaration.target with
  | none =>
    rw [hname] at htarget
    cases htarget
  | some name =>
    rw [hname] at htarget
    obtain ⟨found, hfound, heq⟩ := bind_eq_ok_iff.mp htarget
    obtain rfl := Option.some.inj (pure_eq_ok_iff.mp heq)
    exact (hlegend.resolve hfound).objects

/-! ## The whole game -/

variable {document : Document} {table : SymbolTable} {game : Game}

theorem isClosed_of_ofTable (htable : table.IsClosed) (h : ofTable document table = .ok game) :
    game.IsClosed := by
  obtain ⟨objects, hobjects, h⟩ := bind_eq_ok_iff.mp h
  obtain ⟨player, hplayer, h⟩ := bind_eq_ok_iff.mp h
  obtain ⟨groups, hgroups, h⟩ := bind_eq_ok_iff.mp h
  obtain ⟨conditions, hconditions, h⟩ := bind_eq_ok_iff.mp h
  obtain ⟨levels, hlevels, h⟩ := bind_eq_ok_iff.mp h
  obtain rfl := pure_eq_ok_iff.mp h
  obtain ⟨hsize, hplaced⟩ := table.placed_of_templates htable hobjects
  have hlegend : table.legend.Within objects.size := hsize.symm ▸ htable.within
  have hrules := RuleGroup.build_eq_ok hlegend hgroups
  constructor
  case objects => exact hplaced
  case legend => exact hlegend
  case player => exact (playerOf_eq_ok hlegend hplayer).1
  case player_isEmpty => exact (playerOf_eq_ok hlegend hplayer).2
  case groups_ne_nil => exact fun group hgroup ↦ (hrules group hgroup).1
  case rules => exact fun group hgroup rule hrule ↦ ((hrules group hgroup).2 rule hrule).1
  case subjects =>
    intro condition hcondition
    obtain ⟨declaration, -, hdeclaration⟩ := mem_of_mapM_eq_ok hconditions hcondition
    exact (within_ofDeclaration hlegend hdeclaration).1
  case targets =>
    intro condition hcondition
    obtain ⟨declaration, -, hdeclaration⟩ := mem_of_mapM_eq_ok hconditions hcondition
    exact (within_ofDeclaration hlegend hdeclaration).2
  case levels =>
    intro place board hboard
    rw [level?, List.getElem?_toArray] at hboard
    obtain ⟨⟨drawing, found⟩, hdrawing, hdrawn⟩ := getElem?_of_mapM_eq_ok hlevels hboard
    rw [List.getElem?_zipIdx, Option.map_eq_some_iff] at hdrawing
    obtain ⟨first, -, heq⟩ := hdrawing
    obtain ⟨rfl, rfl⟩ := Prod.mk.inj heq
    rw [Nat.zero_add] at hdrawn
    exact Board.ofDrawing_eq_ok hplaced hdrawn

theorem ofDocument_gives (h : (ofDocument document).Gives game) :
    ∃ table : SymbolTable, table.IsClosed ∧ ofTable document table = .ok game := by
  obtain ⟨table, htable, h⟩ := Logged.Gives.bind h
  obtain ⟨defined, hdefined, h⟩ := Logged.Gives.bind h
  have hgame : defined = game := by
    dsimp only at h
    split at h
    · obtain ⟨-, -, h⟩ := Logged.Gives.bind h
      exact Logged.Gives.pure h
    · exact Logged.Gives.pure h
  exact ⟨table, SymbolTable.isClosed_of_build htable, hgame ▸ Logged.Gives.refuse hdefined⟩

/-- The groups of a game are built from the rule lines of its document, and its legend mentions no
objects without a number. -/
theorem exists_build_of_ofDocument (h : (ofDocument document).Gives game) :
    ∃ count, game.legend.Within count ∧
      RuleGroup.build game.legend document.rules = .ok game.groups := by
  obtain ⟨table, htable, h⟩ := ofDocument_gives h
  obtain ⟨objects, -, h⟩ := bind_eq_ok_iff.mp h
  obtain ⟨player, -, h⟩ := bind_eq_ok_iff.mp h
  obtain ⟨groups, hgroups, h⟩ := bind_eq_ok_iff.mp h
  obtain ⟨conditions, -, h⟩ := bind_eq_ok_iff.mp h
  obtain ⟨levels, -, h⟩ := bind_eq_ok_iff.mp h
  obtain rfl := pure_eq_ok_iff.mp h
  exact ⟨_, htable.within, hgroups⟩

/-- **Defined games are closed.** -/
theorem IsDefined.isClosed (h : game.IsDefined) : game.IsClosed := by
  obtain ⟨document, hdocument⟩ := h
  obtain ⟨table, htable, hgame⟩ := ofDocument_gives hdocument
  exact isClosed_of_ofTable htable hgame

theorem IsDefined.isLayered (h : game.IsDefined) : game.IsLayered := h.isClosed.isLayered

end Game

/-! ## Patterns have cells -/

/-- Every rule line has a left pattern of at least one cell. -/
def Document.IsPatterned (document : Document) : Prop :=
  ∀ declaration ∈ document.rules, declaration.left ≠ []

/-- A pattern ends with the cell that is being read, so it has at least this one. -/
theorem RuleDeclaration.readPattern_ne_nil {words : List String} {cells pattern : List CellPattern}
    {tokens rest : List Token} (h : readPattern words cells tokens = .ok (pattern, rest)) :
    pattern ≠ [] := by
  induction tokens generalizing words cells with
  | nil => cases h
  | cons token tokens ih =>
    cases token with
    | word word => exact ih h
    | bar => exact ih h
    | closing =>
      cases h
      exact List.reverse_ne_nil_iff.mpr (List.cons_ne_nil _ _)
    | opening => cases h
    | arrow => cases h

theorem RuleDeclaration.left_ne_nil_of_ofLine {line : Line} {declaration : RuleDeclaration}
    (h : ofLine line = .ok declaration) : declaration.left ≠ [] := by
  obtain ⟨front, -, h⟩ := bind_eq_ok_iff.mp (mapError_eq_ok_iff.mp h)
  obtain ⟨opened, -, h⟩ := bind_eq_ok_iff.mp h
  obtain ⟨⟨left, tokens⟩, hleft, h⟩ := bind_eq_ok_iff.mp h
  obtain ⟨arrowed, -, h⟩ := bind_eq_ok_iff.mp h
  obtain ⟨right, -, h⟩ := bind_eq_ok_iff.mp h
  obtain ⟨commands, -, h⟩ := bind_eq_ok_iff.mp h
  obtain rfl := pure_eq_ok_iff.mp h
  exact readPattern_ne_nil hleft

theorem Document.IsPatterned.readChunk {document document' : Document} (h : document.IsPatterned)
    {chunk : Chunk} (hread : document.readChunk chunk = .ok document') :
    document'.IsPatterned := by
  rcases (readChunk_cases hread).1 with hrules | hrules
  · rw [IsPatterned, hrules]
    exact h
  · intro declaration hdeclaration
    obtain ⟨line, -, hline⟩ := mem_of_mapM_eq_ok hrules hdeclaration
    exact RuleDeclaration.left_ne_nil_of_ofLine hline

/-- **No pattern of a text is without cells.** -/
theorem Document.isPatterned_of_read {source : String} {document : Document}
    (h : (Document.read source).Gives document) : document.IsPatterned := by
  obtain ⟨lines, -, h⟩ := Logged.Gives.bind h
  obtain ⟨chunks, -, h⟩ := Logged.Gives.bind h
  refine h.foldlM ?_ fun _ hnil ↦ absurd hnil List.not_mem_nil
  intro before chunk after _ hstep hbefore
  obtain ⟨-, -, hchunk⟩ := Logged.Gives.bind hstep
  exact hbefore.readChunk (Logged.Gives.lift hchunk)

theorem Game.cells_ne_nil_of_ofDocument {document : Document} (hdocument : document.IsPatterned)
    {game : Game} (h : (ofDocument document).Gives game) :
    ∀ group ∈ game.groups, ∀ rule ∈ group.rules, rule.cells ≠ [] := by
  obtain ⟨count, hlegend, hgroups⟩ := exists_build_of_ofDocument h
  intro group hgroup rule hrule hnil
  obtain ⟨-, declaration, hdeclaration, hlength⟩ :=
    (RuleGroup.build_eq_ok hlegend hgroups group hgroup).2 rule hrule
  rw [hnil, List.length_nil] at hlength
  exact hdocument declaration hdeclaration (List.length_eq_zero_iff.mp hlength.symm)

/-! ## Games of texts -/

theorem Session.readGame_gives {source : String} {game : Game}
    (h : (Session.readGame source).Gives game) :
    ∃ document : Document, document.IsPatterned ∧ (Game.ofDocument document).Gives game := by
  obtain ⟨document, hdocument, h⟩ := Logged.Gives.bind h
  exact ⟨document, Document.isPatterned_of_read (Logged.Gives.mapError hdocument),
    Logged.Gives.mapError h⟩

theorem Session.isDefined_of_readGame {source : String} {game : Game}
    (h : (Session.readGame source).Gives game) : game.IsDefined := by
  obtain ⟨document, -, hgame⟩ := Session.readGame_gives h
  exact ⟨document, hgame⟩

end TilePuzzle
