import Mathlib.Data.List.SplitBy
import TilePuzzle.Proofs.Repetition
import TilePuzzle.Proofs.Settled

/-!
# Plain games

A rule line of one cell stands for fewer rules than it has directions when the direction does not
matter to it. The *plain* game of a document is the same game with one rule in each direction of
each line, and with the groups read off the lines all at once: a line that does not join the line
before it begins a group.

## What is left out

What the plain game has more is repetitions: a rule is left out of a line just if the line has the
same cell already, in an earlier direction. This goes from lines to groups, since a group is the
rules of its lines one after the other (`Abridges.add`), and from groups to turns, since a turn does
not miss repetitions.
-/

namespace TilePuzzle

/-! ## The plain game -/

namespace RuleDeclaration

/-- Whether the line applies in a direction: it has no heading, or one that stands for it. -/
def appliesIn (rule : RuleDeclaration) (direction : Direction) : Bool :=
  rule.headings.isEmpty ||
    rule.headings.any fun heading ↦ heading.directions.contains direction

/-- One rule in each direction that the line applies in. -/
def expandPlainly (rule : RuleDeclaration) (legend : Legend) : Except DefinitionError (List Rule) :=
  (Direction.all.filter rule.appliesIn).mapM (rule.inDirection legend)

end RuleDeclaration

/-- The rules of several lines in one group. -/
def RuleGroup.ofLines (lines : List (RuleDeclaration × List Rule)) : RuleGroup :=
  ⟨lines.flatMap Prod.snd⟩

/-- The groups of rule lines of which nothing is left out. -/
def RuleGroup.buildPlainly (legend : Legend) (declarations : List RuleDeclaration) :
    Except DefinitionError (List RuleGroup) := do
  let rules ← declarations.mapM fun declaration ↦ declaration.expandPlainly legend
  let parts := (declarations.zip rules).splitBy fun _ line ↦ line.1.joinsPrevious
  return parts.map ofLines

/-- The game of the document with nothing left out of its rule groups. -/
def Game.plainly (game : Game) (document : Document) : Except DefinitionError Game := do
  let groups ← RuleGroup.buildPlainly game.legend document.rules
  return { game with groups }

/-! ## Directions -/

@[simp] theorem DirectionSet.contains_union (s t : DirectionSet) (direction : Direction) :
    (s.union t).contains direction = (s.contains direction || t.contains direction) := by
  cases direction <;> rfl

theorem Heading.exists_contains (heading : Heading) :
    ∃ direction, heading.directions.contains direction = true := by
  cases heading with
  | toward direction => exact ⟨direction, by cases direction <;> rfl⟩
  | horizontal => exact ⟨.left, rfl⟩
  | vertical => exact ⟨.up, rfl⟩
  | orthogonal => exact ⟨.up, rfl⟩

namespace RuleDeclaration

theorem contains_foldl_union (headings : List Heading) (set : DirectionSet)
    (direction : Direction) :
    (headings.foldl (fun set heading ↦ set.union heading.directions) set).contains direction =
      (set.contains direction ||
        headings.any fun heading ↦ heading.directions.contains direction) := by
  induction headings generalizing set with
  | nil => rw [List.foldl_nil, List.any_nil, Bool.or_false]
  | cons heading headings ih =>
    rw [List.foldl_cons, ih, DirectionSet.contains_union, List.any_cons, Bool.or_assoc]

theorem contains_ofHeadings (rule : RuleDeclaration) (direction : Direction) :
    (DirectionSet.ofHeadings rule.headings).contains direction = rule.appliesIn direction := by
  rw [DirectionSet.ofHeadings, appliesIn]
  cases hheadings : rule.headings with
  | nil => cases direction <;> rfl
  | cons heading headings =>
    -- the first heading stands for some direction, so the collected set is not the empty one
    rw [if_neg, contains_foldl_union]
    · cases direction <;> rfl
    · intro hempty
      obtain ⟨direction, hdirection⟩ := heading.exists_contains
      have hcontains := contains_foldl_union (heading :: headings) .empty direction
      rw [hempty, List.any_cons, hdirection, Bool.true_or, Bool.or_true] at hcontains
      cases direction <;> cases hcontains

theorem toList_ofHeadings (rule : RuleDeclaration) :
    (DirectionSet.ofHeadings rule.headings).toList = Direction.all.filter rule.appliesIn := by
  rw [DirectionSet.toList]
  exact List.filter_congr fun direction _ ↦ rule.contains_ofHeadings direction

/-! ## What is left out of a line -/

/-- What a line keeps next to the rules that it has kept already is an abridgement. -/
theorem exists_abridges_dropRepeated {commands : Commands} {rules : List Rule}
    (hrules : ∀ rule ∈ rules, rule.commands = commands) {kept : List Rule}
    (hkept : ∀ rule ∈ kept, rule.commands = commands) :
    ∃ more, rules.foldl (fun kept rule ↦
        if rule.cells.length = 1 ∧ kept.any fun earlier ↦ earlier.cells = rule.cells then kept
        else kept ++ [rule]) kept = kept ++ more ∧
      Rule.Abridges kept rules more := by
  induction rules generalizing kept with
  | nil => exact ⟨[], (List.append_nil kept).symm, .nil kept⟩
  | cons rule rules ih =>
    obtain ⟨hrule, hrules⟩ := List.forall_mem_cons.mp hrules
    rw [List.foldl_cons]
    split
    · next hrepeats =>
      obtain ⟨hlength, hany⟩ := hrepeats
      obtain ⟨earlier, hearlier, hcells⟩ := List.any_eq_true.mp hany
      obtain ⟨more, hmore, habridges⟩ := ih hrules hkept
      exact ⟨more, hmore, .drop ⟨earlier, hearlier, hlength, of_decide_eq_true hcells,
        (hkept earlier hearlier).trans hrule.symm⟩ habridges⟩
    · have hkept' : ∀ other ∈ kept ++ [rule], other.commands = commands :=
        List.forall_mem_append.mpr ⟨hkept, List.forall_mem_singleton.mpr hrule⟩
      obtain ⟨more, hmore, habridges⟩ := ih hrules hkept'
      refine ⟨rule :: more, hmore.trans (List.append_assoc kept [rule] more), .keep rule ?_⟩
      exact habridges.mono fun other hother ↦
        (List.mem_append.mp hother).elim (List.mem_cons_of_mem rule) fun hother ↦
          List.mem_singleton.mp hother ▸ List.mem_cons_self

variable {declaration : RuleDeclaration} {legend : Legend} {rules : List Rule}

theorem commands_of_inDirection {direction : Direction} {rule : Rule}
    (h : declaration.inDirection legend direction = .ok rule) :
    rule.commands = .ofList declaration.commands := by
  obtain ⟨cells, -, h⟩ := bind_eq_ok_iff.mp h
  obtain rfl := pure_eq_ok_iff.mp h
  rfl

theorem exists_abridges_expand (h : declaration.expand legend = .ok rules) :
    ∃ all, declaration.expandPlainly legend = .ok all ∧ Rule.Abridges [] all rules := by
  obtain ⟨all, hall, h⟩ := bind_eq_ok_iff.mp h
  obtain rfl := pure_eq_ok_iff.mp h
  obtain ⟨⟨⟩, -, hall⟩ := bind_eq_ok_iff.mp hall
  have hcommands : ∀ rule ∈ all, rule.commands = .ofList declaration.commands := by
    intro rule hrule
    obtain ⟨direction, -, hdirection⟩ := mem_of_mapM_eq_ok hall hrule
    exact commands_of_inDirection hdirection
  obtain ⟨more, hmore, habridges⟩ := exists_abridges_dropRepeated hcommands
    fun _ hnil ↦ absurd hnil List.not_mem_nil
  rw [toList_ofHeadings] at hall
  exact ⟨all, hall, (show dropRepeated all = more from hmore) ▸ habridges⟩

end RuleDeclaration

/-! ## What is left out of a group -/

namespace RuleGroup

/-- Adding one line after the other builds the groups that the list is split into. -/
theorem foldl_add (lines : List (RuleDeclaration × List Rule))
    (latest : RuleDeclaration × List Rule) (part : List (RuleDeclaration × List Rule))
    (parts : List (List (RuleDeclaration × List Rule))) :
    (lines.foldl add (ofLines (latest :: part).reverse :: parts.map ofLines)).reverse =
      (List.splitBy.loop (fun _ line ↦ line.1.joinsPrevious) lines latest part parts).map
        ofLines := by
  induction lines generalizing latest part parts with
  | nil => rw [List.foldl_nil, List.splitBy.loop, List.map_reverse, List.map_cons]
  | cons line lines ih =>
    obtain ⟨declaration, rules⟩ := line
    rw [List.foldl_cons, add, List.splitBy.loop]
    cases declaration.joinsPrevious with
    | true =>
      rw [← ih, if_pos rfl, List.reverse_cons (a := (declaration, rules)), ofLines, ofLines,
        List.flatMap_append, List.flatMap_singleton]
    | false =>
      rw [← ih, if_neg Bool.false_ne_true]
      simp only [ofLines, List.reverse_singleton, List.flatMap_singleton, List.map_cons]

/-- **A group begins where a line does not join the line before it.** -/
theorem collect_eq (lines : List (RuleDeclaration × List Rule)) :
    collect lines = (lines.splitBy fun _ line ↦ line.1.joinsPrevious).map ofLines := by
  cases lines with
  | nil => rfl
  | cons line lines =>
    obtain ⟨declaration, rules⟩ := line
    rw [List.splitBy, ← foldl_add, collect, List.foldl_cons, add]
    simp only [ofLines, List.reverse_singleton, List.flatMap_singleton, List.map_nil]

/-- The same line with more and with fewer rules. -/
def AbridgesLine (all kept : RuleDeclaration × List Rule) : Prop :=
  all.1 = kept.1 ∧ Rule.Abridges [] all.2 kept.2

theorem Abridges.add {groups kepts : List RuleGroup}
    (h : List.Forall₂ RuleGroup.Abridges groups kepts) {all kept : RuleDeclaration × List Rule}
    (hline : AbridgesLine all kept) :
    List.Forall₂ RuleGroup.Abridges (add groups all) (add kepts kept) := by
  obtain ⟨declaration, allRules⟩ := all
  obtain ⟨_, keptRules⟩ := kept
  obtain ⟨rfl, hrules⟩ := hline
  cases h with
  | nil => exact .cons hrules .nil
  | cons hgroup hgroups =>
    rw [RuleGroup.add, RuleGroup.add]
    split
    · exact .cons (hgroup.append hrules) hgroups
    · exact .cons hrules (.cons hgroup hgroups)

theorem abridges_collect {lines kepts : List (RuleDeclaration × List Rule)}
    (h : List.Forall₂ AbridgesLine lines kepts) :
    List.Forall₂ RuleGroup.Abridges (collect lines) (collect kepts) := by
  rw [collect, collect, List.forall₂_reverse_iff]
  exact List.rel_foldl (P := List.Forall₂ RuleGroup.Abridges) (R := AbridgesLine)
    (fun _ _ hgroups _ _ hline ↦ Abridges.add hgroups hline) .nil h

/-- The lines of a game that is defined can be expanded plainly. -/
theorem exists_abridges_lines {legend : Legend} {declarations : List RuleDeclaration}
    {rules : List (List Rule)}
    (h : declarations.mapM (fun declaration ↦ declaration.expand legend) = .ok rules) :
    ∃ all, declarations.mapM (fun declaration ↦ declaration.expandPlainly legend) = .ok all ∧
      List.Forall₂ AbridgesLine (declarations.zip all) (declarations.zip rules) := by
  have hrules := forall₂_of_mapM_eq_ok h
  clear h
  induction hrules with
  | nil => exact ⟨[], rfl, .nil⟩
  | cons hfirst hrest ih =>
    obtain ⟨all, hall, habridges⟩ := RuleDeclaration.exists_abridges_expand hfirst
    obtain ⟨alls, halls, hlines⟩ := ih
    refine ⟨all :: alls, ?_, .cons ⟨rfl, habridges⟩ hlines⟩
    rw [List.mapM_cons, hall, halls]
    rfl

theorem exists_abridges_build {legend : Legend} {declarations : List RuleDeclaration}
    {groups : List RuleGroup} (h : build legend declarations = .ok groups) :
    ∃ all, buildPlainly legend declarations = .ok all ∧
      List.Forall₂ RuleGroup.Abridges all groups := by
  obtain ⟨rules, hrules, h⟩ := bind_eq_ok_iff.mp h
  obtain rfl := pure_eq_ok_iff.mp h
  obtain ⟨all, hall, hlines⟩ := exists_abridges_lines hrules
  refine ⟨collect (declarations.zip all), ?_, abridges_collect hlines⟩
  rw [buildPlainly, hall, collect_eq]
  rfl

end RuleGroup

/-! ## The same turns -/

/-- **To leave out repetitions goes unnoticed.** Whenever a document defines a game, its plain game
is defined too, and from every board that fits the game, the two play the same turn, whatever the
input and however many rewritings are allowed. -/
theorem Game.runTurn_plainly {document : Document} {game : Game}
    (h : (ofDocument document).Gives game) :
    ∃ plain, game.plainly document = .ok plain ∧
      ∀ board : Board, board.Fits game → ∀ (maxRewrites : Nat) (input : Option Movement),
        plain.runTurn maxRewrites input board = game.runTurn maxRewrites input board := by
  have hlayered := (show game.IsDefined from ⟨document, h⟩).isLayered
  obtain ⟨count, -, hgroups⟩ := exists_build_of_ofDocument h
  obtain ⟨all, hall, habridges⟩ := RuleGroup.exists_abridges_build hgroups
  refine ⟨_, by rw [plainly, hall]; rfl, fun board hboard maxRewrites input ↦ ?_⟩
  exact runTurn_of_abridges hlayered habridges hboard maxRewrites input

/-- The plain game of the doorway has the rule of one cell in four directions, and the player goes
to the right and wins in the one game as in the other. -/
theorem runTurn_plainly_doorway : ∃ (document : Document) (game plain : Game) (board : Board),
    (Game.ofDocument document).Gives game ∧ game.plainly document = .ok plain ∧
      game.ruleCount = 5 ∧ plain.ruleCount = 8 ∧ board.Fits game ∧
      (game.runTurn 2 (some (.toward .right)) board).winRequested = true ∧
      plain.runTurn 2 (some (.toward .right)) board =
        game.runTurn 2 (some (.toward .right)) board := by
  have hread : (Document.read doorway).yields .empty (fun document ↦
      (Game.ofDocument document).yields .empty fun game ↦ game.ruleCount == 5 &&
        (game.plainly document).toOption.any (fun plain ↦ plain.ruleCount == 8) &&
        (game.level? 0).any fun board ↦
          (game.runTurn 2 (some (.toward .right)) board).winRequested) = true := by
    decide +kernel
  obtain ⟨document, -, -, hread⟩ := Logged.exists_of_yields hread
  obtain ⟨game, log, hgame, htest⟩ := Logged.exists_of_yields hread
  have hgives : (Game.ofDocument document).Gives game := ⟨.empty, log, hgame⟩
  obtain ⟨plain, hplain, hturn⟩ := Game.runTurn_plainly hgives
  rw [Bool.and_eq_true, Bool.and_eq_true, beq_iff_eq, hplain] at htest
  obtain ⟨⟨hcount, hplainCount⟩, hlevel⟩ := htest
  obtain ⟨board, hboard, hwon⟩ := (Option.any_eq_true _ _).mp hlevel
  have hdefined : game.IsDefined := ⟨document, hgives⟩
  obtain ⟨-, hfits, -⟩ := hdefined.isClosed.levels 0 board hboard
  exact ⟨document, game, plain, board, hgives, hplain, hcount, beq_iff_eq.mp hplainCount, hfits,
    hwon, hturn board hfits 2 (some (.toward .right))⟩

end TilePuzzle
