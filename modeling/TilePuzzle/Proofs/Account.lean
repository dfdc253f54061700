import TilePuzzle.Proofs.Course
import TilePuzzle.Proofs.Definition.Turn

/-!
# A record is a full account of its turn

A host that draws a turn from its record alone misses nothing. Replayed from the board with the
player's objects marked, the changes always fit, every board of the turn is passed through, and the
last one is, up to intents, the board after the turn. And a firing names the cells that it changed,
all of them and no others, in the order in which its rule lays them out.

## The argument

All of this is said of one step first (`Step.isTold`), where it is what a rewriting says of itself.
Steps that lead from one board to another are replayed one after the other, and the course of the
turn ties the steps of its stages to the subturns of the record.
-/

namespace TilePuzzle

variable {game : Game}

/-! ## One step -/

/-- The firing of a step tells all about it, and is of a rule of the group. -/
structure Step.IsTold (game : Game) (group : RuleGroup) (step : Step) : Prop where
  replay?_eq : step.before.replay? game (Firing.placed [step.firing]) = some step.after
  /-- The cells come in the order of the rule, from the origin and along its direction. -/
  exists_rule : ∃ rule ∈ group.rules, step.firing.line = rule.line ∧
    step.firing.direction = rule.direction ∧
    step.firing.cells.map CellChange.position =
      (step.firing.origin.row rule.direction rule.cells.length).filter fun p ↦
        step.before.cell? p ≠ step.after.cell? p
  mem_iff : ∀ p, p ∈ step.firing.cells.map CellChange.position ↔
    step.before.cell? p ≠ step.after.cell? p
  nodup : (step.firing.cells.map CellChange.position).Nodup
  contains_origin : step.before.contains step.firing.origin = true
  contains : ∀ change ∈ step.firing.cells, step.before.contains change.position = true
  cells_ne_nil : step.firing.cells ≠ []
  changes_ne_nil : ∀ change ∈ step.firing.cells, change.changes ≠ []

theorem Step.isTold (hgame : game.IsLayered) {group : RuleGroup} {step : Step}
    (hbefore : step.before.Fits game) {candidate : Position × Rule}
    (hcandidate : candidate ∈ group.candidates step.before)
    (hstop : stop? game step.before candidate = some (.fire step.after step.firing)) :
    step.IsTold game group := by
  obtain ⟨before, firing, after⟩ := step
  obtain ⟨origin, rule⟩ := candidate
  obtain ⟨horigin, hrule⟩ := RuleGroup.mem_candidates.mp hcandidate
  obtain ⟨bindings, hmatch, hrewrite, hchanged, hline, hdirection, rfl⟩ := stop?_eq_fire hstop
  have hrow := Rule.map_position_rewrite game hmatch
  have hnil := Rule.rewrite_eq_self_iff hgame hbefore hmatch
  have hmem : ∀ p, p ∈ (rule.rewrite game before firing.origin bindings).2.map
      CellChange.position ↔
        before.cell? p ≠ (rule.rewrite game before firing.origin bindings).1.cell? p := fun _ ↦
    Rule.mem_map_position_rewrite hmatch
  have hcontains : ∀ change ∈ (rule.rewrite game before firing.origin bindings).2,
      before.contains change.position = true := fun _ ↦ Rule.contains_of_mem_rewrite
  have hchanges : ∀ change ∈ (rule.rewrite game before firing.origin bindings).2,
      change.changes ≠ [] := fun _ ↦ Rule.changes_ne_nil_of_mem_rewrite hgame hbefore
  dsimp only at hrewrite
  rw [hrewrite] at hrow hnil hmem hcontains hchanges
  refine ⟨replay?_of_stop? hgame hbefore hstop, ⟨rule, hrule, hline, hdirection, hrow⟩, hmem, ?_,
    horigin, hcontains, fun h ↦ hchanged (hnil.mpr h), hchanges⟩
  dsimp only
  rw [hrow]
  exact (Position.nodup_row _ _ _).filter _

/-! ## Many steps -/

theorem replay?_of_leads {start last : Board} {steps : List Step} (h : Leads start steps last)
    (htold : ∀ step ∈ steps,
      step.before.replay? game (Firing.placed [step.firing]) = some step.after) :
    start.replay? game (Firing.placed (steps.map Step.firing)) = some last := by
  induction steps generalizing start with
  | nil =>
    obtain rfl : last = start := h
    rfl
  | cons step steps ih =>
    obtain ⟨rfl, hrest⟩ := h
    obtain ⟨hfirst, htold⟩ := List.forall_mem_cons.mp htold
    rw [List.map_cons, ← List.singleton_append, Firing.placed_append]
    exact Board.replay?_append_of hfirst (ih hrest htold)

theorem replay?_of_leads_append {start last : Board} {earlier later : List Step} {step : Step}
    (h : Leads start (earlier ++ step :: later) last)
    (htold : ∀ other ∈ earlier ++ step :: later,
      other.before.replay? game (Firing.placed [other.firing]) = some other.after) :
    start.replay? game (Firing.placed ((earlier ++ [step]).map Step.firing)) =
      some step.after := by
  obtain ⟨mid, hearlier, hstep, -⟩ := leads_append.mp h
  have hupto : Leads start (earlier ++ [step]) step.after :=
    leads_append.mpr ⟨mid, hearlier, hstep, rfl⟩
  refine replay?_of_leads hupto fun other hother ↦ htold other ?_
  rw [← List.singleton_append, ← List.append_assoc]
  exact List.mem_append_left later hother

theorem placedChanges_eq (subturns : List Subturn) :
    placedChanges subturns = Firing.placed (subturns.flatMap Subturn.firings) := by
  rw [Firing.placed, List.flatMap_assoc]
  rfl

theorem firings_subturns (stages : List Stage) :
    (stages.filterMap Stage.subturn?).flatMap Subturn.firings =
      (stages.flatMap Stage.steps).map Step.firing := by
  induction stages with
  | nil => rfl
  | cons stage stages ih =>
    rw [List.flatMap_cons, List.map_append, ← ih, List.filterMap_cons, Stage.subturn?]
    cases stage.steps <;> simp

/-! ## Turns -/

/-- A turn that begins with a board and goes through some stages is told by its record. -/
structure Turn.IsTold (game : Game) (start : Board) (stages : List Stage) (turn : Turn) :
    Prop where
  /-- Every group has its stage, and every stage with a firing its subturn. -/
  groups_eq : stages.map Stage.group = game.groups
  subturns_eq : turn.record.subturns = stages.filterMap Stage.subturn?
  firings_eq : turn.record.subturns.flatMap Subturn.firings =
    (stages.flatMap Stage.steps).map Step.firing
  steps : ∀ stage ∈ stages, ∀ step ∈ stage.steps, step.IsTold game stage.group
  /-- The first firings of the record lead to the board that is seen after the last of them. -/
  passes : ∀ earlier step later, stages.flatMap Stage.steps = earlier ++ step :: later →
    start.replay? game (Firing.placed ((earlier ++ [step]).map Step.firing)) = some step.after
  /-- The steps begin with the first board, and the record leads to the last one. -/
  ends : ∃ last, Leads start (stages.flatMap Stage.steps) last ∧
    start.replay? game (placedChanges turn.record.subturns) = some last ∧
      turn.board = last.settle

/-- **The record of a turn that is not cancelled tells all of it.** -/
theorem Game.IsDefined.isTold_runTurn (hgame : game.IsDefined) {board : Board}
    (hboard : board.Fits game) {maxRewrites : Nat} {input : Option Movement}
    (h : (game.runTurn maxRewrites input board).cancelled = false) :
    (game.runTurn maxRewrites input board).IsTold game (game.marked input board)
      (game.stages maxRewrites input board) := by
  have hfollows := Game.follows_lastState hgame.isLayered hboard h
  have hsubturns : (game.runTurn maxRewrites input board).record.subturns =
      (game.stages maxRewrites input board).filterMap Stage.subturn? := by
    rw [Game.runTurn_of_not_cancelled h]
    exact hfollows.subturns_eq
  have htold : ∀ stage ∈ game.stages maxRewrites input board, ∀ step ∈ stage.steps,
      step.IsTold game stage.group := by
    intro stage hstage step hstep
    obtain ⟨hbefore, candidate, hcandidate, hstop⟩ :=
      (hfollows.runs stage hstage).1.fires step hstep
    exact step.isTold hgame.isLayered hbefore hcandidate hstop
  have hsteps : ∀ step ∈ (game.stages maxRewrites input board).flatMap Stage.steps,
      step.before.replay? game (Firing.placed [step.firing]) = some step.after := by
    intro step hstep
    obtain ⟨stage, hstage, hstep⟩ := List.mem_flatMap.mp hstep
    exact (htold stage hstage step hstep).replay?_eq
  have hleads := hfollows.leads
  have hfirings := firings_subturns (game.stages maxRewrites input board)
  refine ⟨hfollows.groups_eq, hsubturns, by rw [hsubturns, hfirings], htold, ?_, ?_⟩
  · intro earlier step later hsplit
    rw [hsplit] at hleads hsteps
    exact replay?_of_leads_append hleads hsteps
  · refine ⟨_, hleads, ?_, ?_⟩
    · rw [hsubturns, placedChanges_eq, hfirings]
      exact replay?_of_leads hleads hsteps
    · rw [Game.runTurn_of_not_cancelled h]

/-- In the corridor, the record of the way to the right is its one firing. -/
theorem isTold_corridor : ∃ (game : Game) (board : Board),
    game.IsDefined ∧ board.Fits game ∧ board.IsStill ∧
      (game.runTurn 1 (some (.toward .right)) board).cancelled = false ∧
      (game.runTurn 1 (some (.toward .right)) board).record.firingCount = 1 ∧
      (game.runTurn 1 (some (.toward .right)) board).IsTold game
        (game.marked (some (.toward .right)) board)
        (game.stages 1 (some (.toward .right)) board) := by
  obtain ⟨game, board, hgame, hboard, hstill, hcancelled, hfired⟩ := exists_defined_corridor
  exact ⟨game, board, hgame, hboard, hstill, hcancelled, hfired,
    hgame.isTold_runTurn hboard hcancelled⟩

end TilePuzzle
