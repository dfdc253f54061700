import TilePuzzle.Proofs.Account
import TilePuzzle.Proofs.Match
import TilePuzzle.Proofs.Definition.Pairing
import TilePuzzle.Proofs.Loading.Numbering

/-!
# Rules that never fire

A rule line without a right side only gives orders. So does a line whose right side repeats the left
one, whatever it says: every entry is its own partner and writes the intent that it asked for, a
negated name takes out what the match has excluded, and nothing is left to be spawned. Such a rule
is *idle*. Where it matches it leaves the board as it is and records nothing, hence no record of a
turn names its line, and in a search it counts for its orders alone.

A negated name with a movement word is another matter: on the left it excludes the members of its
set with that intent only, on the right it takes all of them out.

## From lines to cells

`RuleCell.IsIdle` says of the cell of a rule what is needed of it, and the two kinds of idle line
are not mentioned any more once their cells are shown to be idle.

## From cells to turns

An edit by an idle cell leaves the cell as it is at each of its stages, so the rewriting of a board
records nothing (`Rule.rewrite_of_isIdle`). A firing that a turn records has stopped a search on
some board of the turn (`exists_stop?_of_mem_firings`), and an idle rule stops a search by
cancelling or not at all.
-/

namespace TilePuzzle

/-! ## Idle rules -/

/-- The right side of the line, if there is one, repeats the left one, and no negated name has a
movement word. -/
def RuleDeclaration.IsIdle (rule : RuleDeclaration) : Prop :=
  rule.right = none ∨ rule.right = some rule.left ∧
    ∀ cell ∈ rule.left, ∀ term ∈ cell, term.negated = true → term.movement = none

instance (rule : RuleDeclaration) : Decidable rule.IsIdle :=
  inferInstanceAs (Decidable (rule.right = none ∨ rule.right = some rule.left ∧
    ∀ cell ∈ rule.left, ∀ term ∈ cell, term.negated = true → term.movement = none))

/-- Where the cell matches, it does nothing. -/
structure RuleCell.IsIdle (cell : RuleCell) : Prop where
  /-- Every object is kept with the intent that was required. -/
  keeps : ∀ requirement ∈ cell.requirements, ∃ write, requirement.fate = .keep write ∧
    ∀ movement, requirement.test.accepts movement = true → write.effect? movement = none
  /-- What is taken out has been excluded. -/
  excludes : ∀ objects ∈ cell.clears, ⟨objects, .any⟩ ∈ cell.exclusions
  spawns : cell.spawns = []

/-! ## Rewriting by an idle rule -/

namespace RuleCell

variable {pattern : RuleCell} {cell : Cell} {bindings : List Binding} {edit : CellEdit}

theorem IsIdle.removeBound (h : pattern.IsIdle) (bindings : List Binding) (edit : CellEdit) :
    pattern.removeBound bindings edit = edit := by
  refine List.foldlRecOn (motive := (· = edit)) _ _ rfl ?_
  rintro before rfl ⟨requirement, binding⟩ hmem
  obtain ⟨write, hfate, -⟩ := h.keeps requirement (List.of_mem_zip hmem).1
  simp only [hfate]

theorem IsIdle.writeKept (h : pattern.IsIdle) (hcell : cell.slots.length ≤ LayerId.bound)
    (hmatch : pattern.match? cell = some bindings) :
    pattern.writeKept bindings ⟨cell, []⟩ = ⟨cell, []⟩ := by
  refine List.foldlRecOn (motive := (· = (⟨cell, []⟩ : CellEdit))) _ _ rfl ?_
  rintro before rfl ⟨requirement, binding⟩ hmem
  obtain ⟨write, hfate, heffect⟩ := h.keeps requirement (List.of_mem_zip hmem).1
  obtain ⟨occupant, hocc, hobject, hmet⟩ := Requirement.isMetBy_of_bind? hcell
    (bind?_of_match? hmatch hmem)
  have haccepts := (Bool.and_eq_true_iff.mp hmet).2
  simp [hfate, CellEdit.writeIntent, hocc, hobject, heffect _ haccepts]

theorem IsIdle.clearAll (h : pattern.IsIdle) (hmatch : pattern.match? cell = some bindings) :
    pattern.clears.foldl CellEdit.clear ⟨cell, []⟩ = ⟨cell, []⟩ := by
  refine List.foldlRecOn (motive := (· = (⟨cell, []⟩ : CellEdit))) _ _ rfl ?_
  rintro before rfl objects hobjects
  rw [CellEdit.clear, List.filter_eq_nil_iff.mpr]
  · rfl
  · rintro ⟨layer, occupant⟩ hentry (hcontains : objects.contains occupant.object = true)
    have hfree := not_forbids_of_match? hmatch (h.excludes objects hobjects) hentry
    rw [Exclusion.forbids, hcontains] at hfree
    cases hfree

theorem IsIdle.rewrite_eq (h : pattern.IsIdle) (hcell : cell.slots.length ≤ LayerId.bound)
    (hmatch : pattern.match? cell = some bindings) (game : Game) :
    pattern.rewrite game cell bindings = ⟨cell, []⟩ := by
  rw [rewrite, h.removeBound, h.writeKept hcell hmatch, h.clearAll hmatch, h.spawns]
  rfl

end RuleCell

theorem Rule.rewrite_of_isIdle {game : Game} {rule : Rule} {board : Board} {origin : Position}
    {bindings : List (List Binding)} (h : ∀ cell ∈ rule.cells, cell.IsIdle)
    (hgame : game.IsLayered) (hboard : board.Fits game)
    (hmatch : rule.match? board origin = some bindings) :
    rule.rewrite game board origin bindings = (board, []) := by
  have hrow : rewriteCells game rule.direction (rule.cells.zip bindings) origin board =
      (board, []) := by
    refine rewriteCells_eq_self fun n pattern found cell hn hcell ↦ ?_
    obtain ⟨there, hthere, hmatched⟩ := exists_match?_of_matchCells hmatch hn
    obtain rfl := Option.some.inj (hthere.symm.trans hcell)
    have hidle := h pattern (List.of_mem_zip (List.mem_of_getElem? hn)).1
    rw [hidle.rewrite_eq ((hboard.cell? hcell).length_le hgame) hmatched game]
  rw [Rule.rewrite, hrow]
  rfl

/-! ## Cells with two equal sides -/

/-- An intent that was asked for is written without effect. -/
theorem IntentWrite.effect?_ofWord {along : Direction} {word : Option MovementWord}
    {movement : Option Movement} (h : (MovementTest.ofWord along word).accepts movement = true) :
    (IntentWrite.ofWord along word (.ofWord along word)).effect? movement = none := by
  cases word with
  | none => rfl
  | some word =>
    rw [MovementTest.ofWord] at h
    rw [IntentWrite.ofWord]
    cases hword : word.movement? along with
    | none =>
      rw [hword] at h
      obtain rfl := Option.isNone_iff_eq_none.mp h
      rfl
    | some expected =>
      rw [hword] at h
      exact if_pos (beq_iff_eq.mp h)

namespace PatternEntry

@[simp] theorem unpaired_self (entries : List PatternEntry) : unpaired entries entries = [] := by
  rw [unpaired, List.map_eq_nil_iff, List.filter_eq_nil_iff]
  rintro ⟨entry, place⟩ hmem
  have hentry := List.mem_zipIdx_iff_getElem?.mp hmem
  obtain ⟨hplace, hget⟩ := List.getElem?_eq_some_iff.mp hentry
  dsimp only at hplace hget
  -- the entry itself is not among those before it
  have hsplit := congrArg (among entry.objects) (List.take_append_drop place entries)
  rw [List.drop_eq_getElem_cons hplace, hget, among_append, among_cons_self] at hsplit
  rw [decide_eq_true_iff, ← hsplit, List.length_append, List.length_cons]
  omega

end PatternEntry

namespace RuleCell

open PatternEntry

theorem paired_self (along : Direction) (entries : List PatternEntry) :
    paired along entries entries =
      entries.map fun entry ↦
        ⟨entry.objects, entry.test along, entry.fate along (some entry)⟩ := by
  induction entries with
  | nil => rfl
  | cons entry entries ih =>
    simp [paired, ih]

theorem isIdle_of_ofPattern_none {legend : Legend} {line : Nat} {along : Direction}
    {left : CellPattern} {cell : RuleCell}
    (h : ofPattern legend line along left none = .ok cell) : cell.IsIdle := by
  obtain ⟨before, hbefore, h⟩ := bind_eq_ok_iff.mp h
  obtain rfl := pure_eq_ok_iff.mp h
  have heffects : before.clears = [] ∧ before.spawns = [] := by
    refine foldlM_ok_induction (P := fun cell ↦ cell.clears = [] ∧ cell.spawns = []) ?_ hbefore
      ⟨rfl, rfl⟩
    intro cell term cell' _ hadd hcell
    obtain ⟨meaning, -, hadd⟩ := bind_eq_ok_iff.mp hadd
    split at hadd
    · obtain rfl := pure_eq_ok_iff.mp hadd
      exact hcell
    · obtain rfl := pure_eq_ok_iff.mp hadd
      exact hcell
  constructor
  case keeps =>
    intro requirement hrequirement
    obtain ⟨earlier, -, rfl⟩ := List.mem_map.mp hrequirement
    exact ⟨.unchanged, rfl, fun _ _ ↦ rfl⟩
  case excludes =>
    intro objects hobjects
    rw [keepAll, heffects.1] at hobjects
    exact absurd hobjects List.not_mem_nil
  case spawns => exact heffects.2

/-- What the negated names of a cell without movement words take out, they exclude. -/
theorem mem_exclusions_of_mem_clears {legend : Legend} {pattern : CellPattern}
    (h : ∀ term ∈ pattern, term.negated = true → term.movement = none) (along : Direction)
    {objects : ObjectSet} (hobjects : objects ∈ pattern.clears legend) :
    ⟨objects, .any⟩ ∈ pattern.exclusions legend along := by
  obtain ⟨term, hterm, hadds⟩ := List.mem_flatMap.mp hobjects
  refine List.mem_flatMap.mpr ⟨term, hterm, ?_⟩
  rw [PatternTerm.adds] at hadds ⊢
  split at hadds
  · exact absurd hadds List.not_mem_nil
  · split at hadds
    · next hnegated =>
      obtain rfl := List.mem_singleton.mp hadds
      rw [if_pos hnegated, h term hterm hnegated]
      exact List.mem_singleton_self _
    · exact absurd hadds List.not_mem_nil

theorem isIdle_of_ofPattern_self {legend : Legend} {line : Nat} {along : Direction}
    {pattern : CellPattern} {cell : RuleCell}
    (hpattern : ∀ term ∈ pattern, term.negated = true → term.movement = none)
    (h : ofPattern legend line along pattern (some pattern) = .ok cell) : cell.IsIdle := by
  obtain ⟨hnamed, -⟩ := isNamed_of_ofPattern_eq_ok h
  rw [ofPattern_eq hnamed hnamed, pairUp, unpaired_self, paired_self] at h
  cases h
  constructor
  case keeps =>
    intro requirement hrequirement
    obtain ⟨entry, -, rfl⟩ := List.mem_map.mp hrequirement
    exact ⟨_, rfl, fun _ haccepts ↦ IntentWrite.effect?_ofWord haccepts⟩
  case excludes => exact fun objects ↦ mem_exclusions_of_mem_clears hpattern along
  case spawns => rfl

end RuleCell

/-! ## The rules of an idle line -/

namespace RuleDeclaration

variable {declaration : RuleDeclaration} {legend : Legend}

theorem line_of_inDirection {direction : Direction} {rule : Rule}
    (h : declaration.inDirection legend direction = .ok rule) : rule.line = declaration.line := by
  obtain ⟨cells, -, h⟩ := bind_eq_ok_iff.mp h
  obtain rfl := pure_eq_ok_iff.mp h
  rfl

theorem exists_inDirection_of_mem_expand {rules : List Rule}
    (h : declaration.expand legend = .ok rules) {rule : Rule} (hrule : rule ∈ rules) :
    ∃ direction, declaration.inDirection legend direction = .ok rule := by
  obtain ⟨all, hall, h⟩ := bind_eq_ok_iff.mp h
  obtain rfl := pure_eq_ok_iff.mp h
  obtain ⟨⟨⟩, -, hall⟩ := bind_eq_ok_iff.mp hall
  obtain ⟨direction, -, hdirection⟩ := mem_of_mapM_eq_ok hall (mem_of_mem_dropRepeated hrule)
  exact ⟨direction, hdirection⟩

/-- The rules of an idle line have idle cells. -/
theorem IsIdle.isIdle_of_mem_expand (h : declaration.IsIdle) {rules : List Rule}
    (hexpand : declaration.expand legend = .ok rules) {rule : Rule} (hrule : rule ∈ rules) :
    ∀ cell ∈ rule.cells, cell.IsIdle := by
  obtain ⟨direction, hdirection⟩ := exists_inDirection_of_mem_expand hexpand hrule
  obtain ⟨cells, hcells, hdirection⟩ := bind_eq_ok_iff.mp hdirection
  obtain rfl := pure_eq_ok_iff.mp hdirection
  intro cell hcell
  obtain ⟨⟨left, right⟩, hmem, hpattern⟩ := mem_of_mapM_eq_ok hcells hcell
  rw [cellPairs] at hmem
  rcases h with hright | ⟨hright, hnegated⟩
  · rw [hright] at hmem
    obtain ⟨_, -, heq⟩ := List.mem_map.mp hmem
    cases heq
    exact RuleCell.isIdle_of_ofPattern_none hpattern
  · rw [hright] at hmem
    obtain ⟨k, hk⟩ := List.mem_iff_getElem?.mp hmem
    obtain ⟨hleft, hsame⟩ := List.getElem?_zip_eq_some.mp hk
    dsimp only at hleft hsame
    rw [List.getElem?_map, hleft] at hsame
    obtain rfl : some left = right := Option.some.inj hsame
    exact RuleCell.isIdle_of_ofPattern_self (hnegated left (List.mem_of_getElem? hleft)) hpattern

end RuleDeclaration

/-! ## Idle rules in a search -/

/-- In a search, an idle rule that matches counts for its orders alone. -/
theorem search_cons_of_isIdle {game : Game} {rule : Rule} {board : Board}
    (h : ∀ cell ∈ rule.cells, cell.IsIdle) (hgame : game.IsLayered) (hboard : board.Fits game)
    (origin : Position) (candidates : List (Position × Rule)) (winRequested : Bool) :
    search game ((origin, rule) :: candidates) board winRequested =
      if (rule.match? board origin).isSome then
        if rule.commands.cancel then ⟨board, winRequested, .cancelled⟩
        else search game candidates board (winRequested || rule.commands.win)
      else search game candidates board winRequested := by
  rw [search]
  cases hmatch : rule.match? board origin with
  | none => rfl
  | some bindings =>
    simp [Rule.rewrite_of_isIdle h hgame hboard hmatch]

/-! ## Idle rules in a turn -/

namespace Game

/-- Every firing in the record of a turn is that of a candidate on some board of the turn. -/
theorem exists_stop?_of_mem_firings {game : Game} (hgame : game.IsLayered) {board : Board}
    (hboard : board.Fits game) {maxRewrites : Nat} {input : Option Movement} {firing : Firing}
    (h : firing ∈ (game.runTurn maxRewrites input board).record.subturns.flatMap
      Subturn.firings) :
    ∃ group ∈ game.groups, ∃ before after, before.Fits game ∧
      ∃ candidate ∈ group.candidates before,
        stop? game before candidate = some (.fire after firing) := by
  cases hcancelled : (game.runTurn maxRewrites input board).cancelled with
  | true =>
    rw [runTurn_of_cancelled hgame hboard hcancelled] at h
    cases h
  | false =>
    have hfollows := follows_lastState hgame hboard hcancelled
    have hsubturns := hfollows.subturns_eq
    rw [List.nil_append] at hsubturns
    rw [runTurn_of_not_cancelled hcancelled] at h
    dsimp only at h
    rw [hsubturns, firings_subturns] at h
    obtain ⟨step, hstep, rfl⟩ := List.mem_map.mp h
    obtain ⟨stage, hstage, hstep⟩ := List.mem_flatMap.mp hstep
    obtain ⟨hbefore, hcandidate⟩ := (hfollows.runs stage hstage).1.fires step hstep
    have hgroup : stage.group ∈ game.groups :=
      hfollows.groups_eq ▸ List.mem_map_of_mem hstage
    exact ⟨stage.group, hgroup, step.before, step.after, hbefore, hcandidate⟩

/-- Every rule of a game is one that some line of its document stands for. -/
theorem exists_expand_of_mem_groups {document : Document} {game : Game}
    (h : (ofDocument document).Gives game) {group : RuleGroup} (hgroup : group ∈ game.groups)
    {rule : Rule} (hrule : rule ∈ group.rules) :
    ∃ declaration ∈ document.rules, ∃ rules,
      declaration.expand game.legend = .ok rules ∧ rule ∈ rules := by
  obtain ⟨count, hlegend, hgroups⟩ := exists_build_of_ofDocument h
  obtain ⟨lines, hcollects, hlines⟩ := RuleGroup.exists_collects_of_build hlegend hgroups
  obtain ⟨pair, hpair, hrule⟩ := (hcollects group hgroup).2 rule hrule
  obtain ⟨hdeclaration, hexpand⟩ := hlines pair hpair
  exact ⟨pair.1, hdeclaration, pair.2, hexpand, hrule⟩

end Game

/-- **Idle rules never fire.** Where a rule of an idle line matches, the board stays as it is and
nothing is recorded; in a search only its orders count; and if the line is one of a text, no record
of a turn names it. -/
theorem RuleDeclaration.IsIdle.never_fires {declaration : RuleDeclaration}
    (h : declaration.IsIdle) :
    (∀ legend rules, declaration.expand legend = .ok rules → ∀ rule ∈ rules,
      ∀ game : Game, game.IsLayered → ∀ board : Board, board.Fits game → ∀ origin,
        (∀ bindings, rule.match? board origin = some bindings →
          rule.rewrite game board origin bindings = (board, [])) ∧
        ∀ candidates winRequested, search game ((origin, rule) :: candidates) board winRequested =
          if (rule.match? board origin).isSome then
            if rule.commands.cancel then ⟨board, winRequested, .cancelled⟩
            else search game candidates board (winRequested || rule.commands.win)
          else search game candidates board winRequested) ∧
    ∀ source document game, (Document.read source).Gives document → declaration ∈ document.rules →
      (Game.ofDocument document).Gives game → ∀ board : Board, board.Fits game →
        ∀ maxRewrites input,
          ∀ firing ∈ (game.runTurn maxRewrites input board).record.subturns.flatMap
            Subturn.firings, firing.line ≠ declaration.line := by
  constructor
  · intro legend rules hexpand rule hrule game hgame board hboard origin
    have hidle := h.isIdle_of_mem_expand hexpand hrule
    exact ⟨fun bindings hmatch ↦ Rule.rewrite_of_isIdle hidle hgame hboard hmatch,
      search_cons_of_isIdle hidle hgame hboard origin⟩
  · intro source document game hread hmem hdefined board hboard maxRewrites input firing hfiring
      hline
    have hgame := Game.IsDefined.isLayered ⟨document, hdefined⟩
    obtain ⟨group, hgroup, before, after, hbefore, ⟨origin, rule⟩, hcandidate, hstop⟩ :=
      Game.exists_stop?_of_mem_firings hgame hboard hfiring
    obtain ⟨bindings, hmatch, hrewrite, hchanged, hruleLine, -⟩ := stop?_eq_fire hstop
    obtain ⟨other, hother, rules, hexpand, hrule⟩ :=
      Game.exists_expand_of_mem_groups hdefined hgroup (RuleGroup.mem_candidates.mp hcandidate).2
    obtain ⟨direction, hdirection⟩ := exists_inDirection_of_mem_expand hexpand hrule
    -- the lines of a text have numbers of their own, so the rule is one of the idle line
    have hotherLine : other.line = declaration.line :=
      (line_of_inDirection hdirection).symm.trans (hruleLine.symm.trans hline)
    obtain rfl := (Document.isNumbered_of_read hread).eq_of_line_eq hother hmem hotherLine
    have hself := Rule.rewrite_of_isIdle (h.isIdle_of_mem_expand hexpand hrule) hgame hbefore hmatch
    exact hchanged (Prod.mk.inj (hrewrite.symm.trans hself)).1

/-- Someone who is called by three names, and does not stand on a lamp, goes on as before. -/
def hall : String :=
  "OBJECTS\nPlayer P\n\nFloor .\n\nLamp L\nLEGEND\nThing = Player or Lamp\n" ++
    "COLLISIONLAYERS\n.\nP\nL\nRULES\n" ++
    "[ > P Thing Player no Lamp ] -> [ > P Thing Player no Lamp ]\n" ++
    "[ > P | . ] -> [ | . P ]\nLEVELS\nP.\n"

/-- In the hall the idle line matches when the player sets out to the right, but the one firing is
that of the line below it. -/
theorem never_fires_hall : ∃ (document : Document) (declaration : RuleDeclaration) (game : Game)
    (board : Board), (Document.read hall).Gives document ∧ declaration ∈ document.rules ∧
      declaration.IsIdle ∧ (Game.ofDocument document).Gives game ∧ board.Fits game ∧
      (∃ rules, declaration.expand game.legend = .ok rules ∧ ∃ rule ∈ rules, ∃ bindings,
        rule.match? (game.marked (some (.toward .right)) board) ⟨0, 0⟩ = some bindings ∧
          rule.rewrite game (game.marked (some (.toward .right)) board) ⟨0, 0⟩ bindings =
            (game.marked (some (.toward .right)) board, [])) ∧
      (game.runTurn 1 (some (.toward .right)) board).record.firingCount = 1 ∧
      ∀ firing ∈ (game.runTurn 1 (some (.toward .right)) board).record.subturns.flatMap
        Subturn.firings, firing.line ≠ declaration.line := by
  have hread : (Document.read hall).yields .empty (fun document ↦
      document.rules.any fun declaration ↦ decide declaration.IsIdle &&
        (Game.ofDocument document).yields .empty fun game ↦
          (declaration.expand game.legend).toOption.any fun rules ↦
            (game.level? 0).any fun board ↦
              (rules.any fun rule ↦
                (rule.match? (game.marked (some (.toward .right)) board) ⟨0, 0⟩).isSome) &&
              (game.runTurn 1 (some (.toward .right)) board).record.firingCount == 1) = true := by
    decide +kernel
  obtain ⟨document, log, hdocument, hread⟩ := Logged.exists_of_yields hread
  obtain ⟨declaration, hdeclaration, hread⟩ := List.any_eq_true.mp hread
  rw [Bool.and_eq_true, decide_eq_true_iff] at hread
  obtain ⟨hidle, hread⟩ := hread
  obtain ⟨game, log', hgame, hread⟩ := Logged.exists_of_yields hread
  cases hexpand : declaration.expand game.legend with
  | error error =>
    rw [hexpand] at hread
    cases hread
  | ok rules =>
    rw [hexpand, Except.toOption, Option.any_some] at hread
    obtain ⟨board, hboard, hturn⟩ := (Option.any_eq_true _ _).mp hread
    rw [Bool.and_eq_true, beq_iff_eq] at hturn
    obtain ⟨rule, hrule, hmatch⟩ := List.any_eq_true.mp hturn.1
    obtain ⟨bindings, hmatch⟩ := Option.isSome_iff_exists.mp hmatch
    have hgives : (Game.ofDocument document).Gives game := ⟨.empty, log', hgame⟩
    have hdefined : game.IsDefined := ⟨document, hgives⟩
    obtain ⟨-, hfits, -⟩ := hdefined.isClosed.levels 0 board hboard
    obtain ⟨hrewrite, hrecord⟩ := hidle.never_fires
    have hself := (hrewrite game.legend rules hexpand rule hrule game hdefined.isLayered _
      (Game.fits_marked (some (.toward .right)) hfits) ⟨0, 0⟩).1 bindings hmatch
    exact ⟨document, declaration, game, board, ⟨.empty, log, hdocument⟩, hdeclaration, hidle,
      hgives, hfits, ⟨rules, hexpand, rule, hrule, bindings, hmatch, hself⟩, hturn.2,
      hrecord hall document game ⟨.empty, log, hdocument⟩ hdeclaration hgives board hfits 1 _⟩

end TilePuzzle
