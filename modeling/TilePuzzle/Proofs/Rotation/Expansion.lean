import TilePuzzle.Proofs.Definition.Turn
import TilePuzzle.Proofs.Rotation.Rule

/-!
# Rule lines look the same in every direction

A rule line whose movement words are relative to the direction of the rule, or are the action or
`stationary`, prefers no direction of the grid. Expanded in the next direction counter-clockwise it
gives the turned rule, word by word: every bearing turns with the direction that it is seen from. So
the rule in the one direction does on a board what the rule in the other does on the turned board.

A word like `up` does not turn with the rule, so lines with such words are left out here.

## The induction

The cells of a rule are built term by term, and a cell that is turned and then given a term is the
cell that is given the term in the next direction and then turned (`addLeft_turnLeft`,
`addRight_turnLeft`). That a requirement is free does not depend on its direction, so the same
requirements are kept.
-/

namespace TilePuzzle

/-! ## Words that turn -/

/-- Whether the movement that the word stands for turns with the rule. -/
def MovementWord.isTurnable : MovementWord → Bool
  | relative _ => true
  | absolute movement => movement.direction?.isNone
  | stationary => true

/-- Every movement word of the pattern turns with the rule. -/
def CellPattern.IsTurnable (pattern : CellPattern) : Prop :=
  ∀ term ∈ pattern, ∀ word ∈ term.movement, word.isTurnable = true

/-- Every movement word of the rule line turns with the rule. -/
structure RuleDeclaration.IsTurnable (rule : RuleDeclaration) : Prop where
  left : ∀ pattern ∈ rule.left, CellPattern.IsTurnable pattern
  right : ∀ patterns ∈ rule.right, ∀ pattern ∈ patterns, CellPattern.IsTurnable pattern

instance (pattern : CellPattern) : Decidable pattern.IsTurnable :=
  inferInstanceAs (Decidable (∀ term ∈ pattern, ∀ word ∈ term.movement, word.isTurnable = true))

instance (rule : RuleDeclaration) : Decidable rule.IsTurnable :=
  decidable_of_iff ((∀ pattern ∈ rule.left, CellPattern.IsTurnable pattern) ∧
      ∀ patterns ∈ rule.right, ∀ pattern ∈ patterns, CellPattern.IsTurnable pattern)
    ⟨fun h ↦ ⟨h.1, h.2⟩, fun h ↦ ⟨h.left, h.right⟩⟩

@[simp] theorem Bearing.direction_turnLeft (bearing : Bearing) (along : Direction) :
    bearing.direction along.turnLeft = (bearing.direction along).turnLeft := by
  cases bearing <;> cases along <;> rfl

theorem MovementWord.movement?_turnLeft {word : MovementWord} (h : word.isTurnable = true)
    (along : Direction) :
    word.movement? along.turnLeft = (word.movement? along).map Movement.turned := by
  cases word with
  | relative bearing =>
    exact congrArg (fun d ↦ some (Movement.toward d)) (bearing.direction_turnLeft along)
  | absolute movement =>
    cases movement with
    | toward d => cases h
    | action => rfl
  | stationary => rfl

section

variable {word : Option MovementWord} (h : ∀ w ∈ word, w.isTurnable = true) (along : Direction)

include h

@[simp] theorem MovementTest.ofWord_turnLeft :
    MovementTest.ofWord along.turnLeft word = (MovementTest.ofWord along word).turned := by
  cases word with
  | none => rfl
  | some word =>
    rw [ofWord, ofWord, word.movement?_turnLeft (h word rfl)]
    cases word.movement? along <;> rfl

@[simp] theorem IntentWrite.ofWord_turnLeft (test : MovementTest) :
    IntentWrite.ofWord along.turnLeft word test.turned =
      (IntentWrite.ofWord along word test).turned := by
  cases word with
  | none => cases test <;> rfl
  | some word =>
    rw [ofWord, ofWord, word.movement?_turnLeft (h word rfl)]
    cases word.movement? along <;> rfl

end

/-! ## Terms -/

namespace RuleCell

variable {legend : Legend} {line : Nat} {along : Direction} {term : PatternTerm}

theorem addLeft_turnLeft (h : ∀ word ∈ term.movement, word.isTurnable = true) (cell : RuleCell) :
    addLeft legend line along.turnLeft cell.turned term =
      (addLeft legend line along cell term).map turned := by
  rw [addLeft, addLeft]
  cases legend.resolve line term.name with
  | error error => rfl
  | ok meaning =>
    simp only [bind, Except.bind, MovementTest.ofWord_turnLeft h]
    split
    · simp only [turned, pure, Except.pure, Except.map, List.map_append, List.map_singleton,
        Exclusion.turned]
    · simp only [turned, pure, Except.pure, Except.map, List.map_append, List.map_map]
      rfl

theorem claim?_turned {objects : ObjectSet} {write write' : MovementTest → IntentWrite}
    (h : ∀ test, write' test.turned = (write test).turned) (requirements : List Requirement) :
    claim? objects write' (requirements.map Requirement.turned) =
      (claim? objects write requirements).map (List.map Requirement.turned) := by
  induction requirements with
  | nil => rfl
  | cons first rest ih =>
    have hfate : first.turned.fate = .remove ↔ first.fate = .remove := by
      cases hfirst : first.fate <;> simp [Requirement.turned, Fate.turned, hfirst]
    rw [List.map_cons, claim?, claim?, ih]
    by_cases hclaim : first.fate = .remove ∧ first.objects = objects
    · rw [if_pos hclaim, if_pos ⟨hfate.mpr hclaim.1, hclaim.2⟩]
      simp only [Requirement.turned, Fate.turned, h, Option.map_some, List.map_cons]
    · rw [if_neg hclaim, if_neg fun h ↦ hclaim ⟨hfate.mp h.1, h.2⟩, Option.map_map, Option.map_map]
      rfl

theorem keepOrSpawn_turnLeft {word : Option MovementWord}
    (h : ∀ w ∈ word, w.isTurnable = true) (cell : RuleCell) (id : ObjectId) :
    cell.turned.keepOrSpawn along.turnLeft word id = (cell.keepOrSpawn along word id).turned := by
  have hmovement : (word.bind fun w ↦ w.movement? along.turnLeft) =
      (word.bind fun w ↦ w.movement? along).map Movement.turned := by
    cases word with
    | none => rfl
    | some word => exact word.movement?_turnLeft (h word rfl) along
  rw [keepOrSpawn, keepOrSpawn, turned,
    claim?_turned (IntentWrite.ofWord_turnLeft h along), hmovement]
  cases claim? (.single id) (.ofWord along word) cell.requirements with
  | some requirements => rfl
  | none => simp only [Option.map_none, turned, List.map_append, List.map_singleton, Spawn.turned]

theorem addRight_turnLeft (h : ∀ word ∈ term.movement, word.isTurnable = true) (cell : RuleCell) :
    addRight legend line along.turnLeft cell.turned term =
      (addRight legend line along cell term).map turned := by
  rw [addRight, addRight]
  cases legend.resolve line term.name with
  | error error => rfl
  | ok meaning =>
    simp only [bind, Except.bind]
    split
    · rfl
    · cases meaning with
      | object id => exact congrArg Except.ok (keepOrSpawn_turnLeft h cell id)
      | aggregate members =>
        exact congrArg Except.ok (List.foldl_hom turned (keepOrSpawn_turnLeft h))
      | property members =>
        have hclaim : claim? members (.ofWord along.turnLeft term.movement)
              cell.turned.requirements =
            (claim? members (.ofWord along term.movement) cell.requirements).map
              (List.map Requirement.turned) :=
          claim?_turned (IntentWrite.ofWord_turnLeft h along) cell.requirements
        dsimp only
        rw [hclaim]
        cases claim? members (.ofWord along term.movement) cell.requirements with
        | none => rfl
        | some requirements => rfl

@[simp] theorem keepAll_turned (cell : RuleCell) : cell.turned.keepAll = cell.keepAll.turned := by
  rw [keepAll, keepAll, turned, turned, List.map_map, List.map_map]
  rfl

theorem foldlM_turned {step step' : RuleCell → PatternTerm → Except DefinitionError RuleCell}
    {terms : CellPattern}
    (h : ∀ term ∈ terms, ∀ cell : RuleCell, step' cell.turned term = (step cell term).map turned)
    (cell : RuleCell) :
    terms.foldlM step' cell.turned = (terms.foldlM step cell).map turned := by
  induction terms generalizing cell with
  | nil => rfl
  | cons term terms ih =>
    obtain ⟨hterm, hterms⟩ := List.forall_mem_cons.mp h
    rw [List.foldlM_cons, List.foldlM_cons, hterm]
    cases step cell term with
    | error error => rfl
    | ok next => exact ih hterms next

theorem ofPattern_turnLeft {left : CellPattern} (hleft : left.IsTurnable)
    {right : Option CellPattern} (hright : ∀ pattern ∈ right, pattern.IsTurnable) :
    ofPattern legend line along.turnLeft left right =
      (ofPattern legend line along left right).map turned := by
  have hcell : left.foldlM (addLeft legend line along.turnLeft) empty =
      (left.foldlM (addLeft legend line along) empty).map turned :=
    foldlM_turned (fun term hterm ↦ addLeft_turnLeft (hleft term hterm)) empty
  rw [ofPattern, ofPattern, hcell]
  cases left.foldlM (addLeft legend line along) empty with
  | error error => rfl
  | ok cell =>
    cases right with
    | none => exact congrArg Except.ok cell.keepAll_turned
    | some right =>
      exact foldlM_turned (fun term hterm ↦ addRight_turnLeft (hright right rfl term hterm)) cell

end RuleCell

/-! ## Rules -/

namespace RuleDeclaration

variable {declaration : RuleDeclaration} {legend : Legend} {direction : Direction}

theorem IsTurnable.of_mem_cellPairs (h : declaration.IsTurnable)
    {pair : CellPattern × Option CellPattern} (hpair : pair ∈ declaration.cellPairs) :
    pair.1.IsTurnable ∧ ∀ pattern ∈ pair.2, pattern.IsTurnable := by
  rw [cellPairs] at hpair
  cases hright : declaration.right with
  | none =>
    rw [hright] at hpair
    obtain ⟨left, hleft, rfl⟩ := List.mem_map.mp hpair
    exact ⟨h.left left hleft, fun _ hnone ↦ by cases hnone⟩
  | some right =>
    rw [hright] at hpair
    obtain ⟨left, found⟩ := pair
    obtain ⟨hleft, hfound⟩ := List.of_mem_zip hpair
    obtain ⟨pattern, hpattern, rfl⟩ := List.mem_map.mp hfound
    refine ⟨h.left left hleft, fun other hother ↦ ?_⟩
    obtain rfl := Option.some.inj hother
    exact h.right right hright pattern hpattern

theorem mapM_ofPattern_turnLeft {line : Nat} {pairs : List (CellPattern × Option CellPattern)}
    (h : ∀ pair ∈ pairs, pair.1.IsTurnable ∧ ∀ pattern ∈ pair.2, pattern.IsTurnable) :
    pairs.mapM (fun pair ↦ RuleCell.ofPattern legend line direction.turnLeft pair.1 pair.2) =
      (pairs.mapM fun pair ↦ RuleCell.ofPattern legend line direction pair.1 pair.2).map
        (List.map RuleCell.turned) := by
  induction pairs with
  | nil => rfl
  | cons pair pairs ih =>
    obtain ⟨⟨hleft, hright⟩, hpairs⟩ := List.forall_mem_cons.mp h
    rw [List.mapM_cons, List.mapM_cons, RuleCell.ofPattern_turnLeft hleft hright, ih hpairs]
    cases RuleCell.ofPattern legend line direction pair.1 pair.2 with
    | error error => rfl
    | ok cell =>
      cases pairs.mapM fun pair ↦ RuleCell.ofPattern legend line direction pair.1 pair.2 with
      | error error => rfl
      | ok cells => rfl

/-- **In the turned direction, a line stands for the turned rule.** -/
theorem inDirection_turnLeft (h : declaration.IsTurnable) :
    declaration.inDirection legend direction.turnLeft =
      (declaration.inDirection legend direction).map Rule.turned := by
  have hcells : (declaration.cellPairs.mapM fun pair ↦
        RuleCell.ofPattern legend declaration.line direction.turnLeft pair.1 pair.2) =
      (declaration.cellPairs.mapM fun pair ↦
        RuleCell.ofPattern legend declaration.line direction pair.1 pair.2).map
          (List.map RuleCell.turned) :=
    mapM_ofPattern_turnLeft fun _ hpair ↦ h.of_mem_cellPairs hpair
  rw [inDirection, inDirection]
  refine (congrArg (· >>= _) hcells).trans ?_
  cases declaration.cellPairs.mapM fun pair ↦
      RuleCell.ofPattern legend declaration.line direction pair.1 pair.2 with
  | error error => rfl
  | ok cells => rfl

/-- **Expanding a rule line goes with quarter turns.** Let the movement words of the line turn with
the rule, and let it stand for a rule in some direction. It then stands for a rule in the next
direction counter-clockwise, which matches on the turned board just where and just as the first
matches on the board, and rewrites it in the same way: the boards and the records that come out are
again a quarter turn apart. -/
theorem IsTurnable.turned_inDirection (h : declaration.IsTurnable) {rule : Rule}
    (hrule : declaration.inDirection legend direction = .ok rule) :
    ∃ rule', declaration.inDirection legend direction.turnLeft = .ok rule' ∧
      ∀ (board : Board) (origin : Position),
        rule'.match? board.turned (origin.turned board.width) = rule.match? board origin ∧
          ∀ (game : Game) (bindings : List (List Binding)),
            rule'.rewrite game board.turned (origin.turned board.width) bindings =
              ((rule.rewrite game board origin bindings).1.turned,
                (rule.rewrite game board origin bindings).2.map
                  (CellChange.turned board.width)) := by
  refine ⟨rule.turned, ?_, fun board origin ↦ ⟨rule.match?_turned board origin, ?_⟩⟩
  · rw [inDirection_turnLeft h, hrule]
    rfl
  · exact fun game bindings ↦ rule.rewrite_turned game board origin bindings

end RuleDeclaration

/-- In the corridor, the rule to the right takes the player along, and so does the rule upwards in
the turned corridor. -/
theorem turned_inDirection_corridor : ∃ (declaration : RuleDeclaration) (legend : Legend)
    (rule rule' : Rule) (game : Game) (board : Board) (bindings : List (List Binding)),
    declaration.IsTurnable ∧ declaration.inDirection legend .right = .ok rule ∧
      declaration.inDirection legend .up = .ok rule' ∧
      rule.match? board ⟨0, 0⟩ = some bindings ∧
      rule'.match? board.turned ⟨0, 1⟩ = some bindings ∧
      (rule.rewrite game board ⟨0, 0⟩ bindings).2.map CellChange.position =
        [⟨0, 0⟩, ⟨1, 0⟩] ∧
      (rule'.rewrite game board.turned ⟨0, 1⟩ bindings).2.map CellChange.position =
        [⟨0, 1⟩, ⟨0, 0⟩] := by
  have hread : (Document.read corridor).yields .empty (fun document ↦
      (Game.ofDocument document).yields .empty fun game ↦ document.rules.any fun declaration ↦
        decide declaration.IsTurnable &&
          (declaration.inDirection game.legend .right).toOption.any fun rule ↦
            (game.level? 0).any fun level ↦
              let board := game.marked (some (.toward .right)) level
              board.width == 2 && (rule.match? board ⟨0, 0⟩).any fun bindings ↦
                (rule.rewrite game board ⟨0, 0⟩ bindings).2.map CellChange.position ==
                  [⟨0, 0⟩, ⟨1, 0⟩]) = true := by
    decide +kernel
  obtain ⟨document, -, -, hread⟩ := Logged.exists_of_yields hread
  obtain ⟨game, -, -, htest⟩ := Logged.exists_of_yields hread
  obtain ⟨declaration, -, htest⟩ := List.any_eq_true.mp htest
  rw [Bool.and_eq_true, decide_eq_true_eq, Option.any_eq_true] at htest
  obtain ⟨hturnable, rule, hrule, htest⟩ := htest
  obtain ⟨level, -, htest⟩ := (Option.any_eq_true _ _).mp htest
  generalize game.marked (some (.toward .right)) level = board at htest
  rw [Bool.and_eq_true, beq_iff_eq, Option.any_eq_true] at htest
  obtain ⟨hwidth, bindings, hmatch, hcells⟩ := htest
  replace hrule : declaration.inDirection game.legend .right = .ok rule := by
    cases h : declaration.inDirection game.legend .right with
    | error error =>
      rw [h] at hrule
      cases hrule
    | ok found =>
      rw [h] at hrule
      rw [Option.some.inj hrule]
  obtain ⟨rule', hrule', hturned⟩ := hturnable.turned_inDirection hrule
  obtain ⟨hmatch', hrewrite⟩ := hturned board ⟨0, 0⟩
  rw [hwidth] at hmatch' hrewrite
  refine ⟨declaration, game.legend, rule, rule', game, board, bindings, hturnable, hrule, hrule',
    hmatch, hmatch'.trans hmatch, beq_iff_eq.mp hcells, ?_⟩
  have hpositions : (rule'.rewrite game board.turned ⟨0, 1⟩ bindings).2.map CellChange.position =
      ((rule.rewrite game board ⟨0, 0⟩ bindings).2.map CellChange.position).map
        (Position.turned 2) := by
    rw [show (⟨0, 1⟩ : Position) = Position.turned 2 ⟨0, 0⟩ from rfl, hrewrite, List.map_map,
      List.map_map]
    rfl
  rw [hpositions, beq_iff_eq.mp hcells]
  rfl

end TilePuzzle
