import TilePuzzle.Proofs.Search

/-!
# The course of a turn

A record tells the firings of a turn and leaves out the boards between them. The *course* of a turn
keeps both. A *step* is one firing with the board before it and the board after it, a *stage* is the
run of one group with its steps, and a turn goes from stage to stage.

## The run of a group

What the run of a group may consist of is said once, by `RuleGroup.Runs`, and everything else about
it is read off there: each step fires at the first candidate that stops the search, and a group is
settled only when no candidate does.

## From stage to stage

`Follows` leads from one state of a turn to a later one. One more stage may be put in front of it,
which is how the engine takes up its groups, so a turn that is not cancelled goes through the stages
of all of them (`follows_runGroups`).
-/

namespace TilePuzzle

/-! ## Steps -/

/-- One firing, with the board before it and the board after it. -/
structure Step where
  before : Board
  firing : Firing
  after : Board

/-- The steps lead from one board to another: each begins where the one before it ended. -/
def Leads : Board → List Step → Board → Prop
  | start, [], last => last = start
  | start, step :: steps, last => step.before = start ∧ Leads step.after steps last

theorem leads_append {start last : Board} {steps steps' : List Step} :
    Leads start (steps ++ steps') last ↔ ∃ mid, Leads start steps mid ∧ Leads mid steps' last := by
  induction steps generalizing start with
  | nil => simp [Leads]
  | cons step steps ih => simp [Leads, ih, and_assoc]

/-! ## The steps of a group -/

/-- The steps of a run, as the engine searches again and again. -/
def settleSteps (game : Game) (candidates : List (Position × Rule)) :
    Nat → Board → Bool → List Step
  | 0, _, _ => []
  | budget + 1, board, winRequested =>
    match search game candidates board winRequested with
    | ⟨after, winRequested, .fired firing⟩ =>
      ⟨board, firing, after⟩ :: settleSteps game candidates budget after winRequested
    | ⟨_, _, .cancelled⟩ => []
    | ⟨_, _, .settled⟩ => []

variable {game : Game}

theorem firings_settleGroup (candidates : List (Position × Rule)) (budget : Nat)
    (fired : List Firing) (board : Board) (winRequested : Bool) :
    (settleGroup game candidates budget fired board winRequested).firings =
      fired.reverse ++ (settleSteps game candidates budget board winRequested).map Step.firing := by
  fun_induction settleGroup game candidates budget fired board winRequested with
  | case1 fired board winRequested => simp [settleSteps]
  | case2 fired board winRequested budget after winRequested' firing h ih =>
    rw [ih, settleSteps, h]
    simp
  | case3 fired board winRequested budget after winRequested' h => simp [settleSteps, h]
  | case4 fired board winRequested budget after winRequested' h => simp [settleSteps, h]

/-- What the run of a group consists of: the board and whether a win was ordered, before and after
it, and the steps between. -/
inductive RuleGroup.Runs (game : Game) (group : RuleGroup) :
    Board → Bool → List Step → Board → Bool → RunEnd → Prop
  /-- The group has fired as often as it may. -/
  | saturated (board : Board) (ordered : Bool) :
      Runs game group board ordered [] board ordered .saturated
  /-- The first candidate that stops the search cancels the turn. -/
  | cancelled {board : Board} (ordered ordered' : Bool)
      (hstop : (group.candidates board).findSome? (stop? game board) = some .cancel) :
      Runs game group board ordered [] board ordered' .cancelled
  /-- No candidate stops the search. -/
  | settled {board : Board} (ordered : Bool) (hboard : board.Fits game)
      (hstop : (group.candidates board).findSome? (stop? game board) = none) :
      Runs game group board ordered [] board
        (ordered || (group.candidates board).any (ordersWin board)) .settled
  /-- The first candidate that stops the search fires. -/
  | fired {before after last : Board} {ordered ordered' : Bool} {firing : Firing}
      {steps : List Step} {ended : RunEnd} (hbefore : before.Fits game)
      (hstop : (group.candidates before).findSome? (stop? game before) =
        some (.fire after firing))
      (hrest : Runs game group after
        (ordered || (tried game before (group.candidates before)).any (ordersWin before))
        steps last ordered' ended) :
      Runs game group before ordered (⟨before, firing, after⟩ :: steps) last ordered' ended

theorem runs_settleGroup (hgame : game.IsLayered) (group : RuleGroup) (budget : Nat)
    (fired : List Firing) {board : Board} (hboard : board.Fits game) (ordered : Bool) :
    let run := settleGroup game (group.candidates board) budget fired board ordered
    group.Runs game board ordered (settleSteps game (group.candidates board) budget board ordered)
      run.board run.winRequested run.ended := by
  induction budget generalizing fired board ordered with
  | zero => exact .saturated board ordered
  | succ budget ih =>
    rw [settleGroup, settleSteps]
    cases hsearch : search game (group.candidates board) board ordered with
    | mk after ordered' ended =>
      cases ended with
      | fired firing =>
        obtain ⟨hstop, rfl⟩ := search_eq_fired hgame hboard hsearch
        obtain ⟨hafter, hcandidates⟩ := group.fits_of_fire hgame hboard hstop
        have hrest := ih (firing :: fired) hafter
          (ordered || (tried game board (group.candidates board)).any (ordersWin board))
        rw [hcandidates] at hrest
        exact .fired hboard hstop hrest
      | cancelled =>
        obtain ⟨hstop, rfl⟩ := search_eq_cancelled hgame hboard hsearch
        exact .cancelled ordered ordered' hstop
      | settled =>
        obtain ⟨hstop, rfl, rfl⟩ := search_eq_settled hgame hboard hsearch
        rw [tried_eq_self hstop]
        exact .settled ordered hboard hstop

namespace RuleGroup.Runs

variable {group : RuleGroup} {start last : Board} {ordered ordered' : Bool} {steps : List Step}
  {ended : RunEnd}

theorem leads (h : group.Runs game start ordered steps last ordered' ended) :
    Leads start steps last := by
  induction h with
  | saturated board ordered => rfl
  | cancelled ordered ordered' hstop => rfl
  | settled ordered hboard hstop => rfl
  | fired hbefore hstop hrest ih => exact ⟨rfl, ih⟩

theorem fires (h : group.Runs game start ordered steps last ordered' ended) :
    ∀ step ∈ steps, step.before.Fits game ∧ ∃ candidate ∈ group.candidates step.before,
      stop? game step.before candidate = some (.fire step.after step.firing) := by
  induction h with
  | saturated board ordered => simp
  | cancelled ordered ordered' hstop => simp
  | settled ordered hboard hstop => simp
  | fired hbefore hstop hrest ih =>
    intro step hstep
    rcases List.mem_cons.mp hstep with rfl | hstep
    · exact ⟨hbefore, List.exists_of_findSome?_eq_some hstop⟩
    · exact ih step hstep

/-- On the board of a settled group no candidate stops a search, and every order to win that is
given there has been taken up. -/
theorem of_settled (h : group.Runs game start ordered steps last ordered' .settled) :
    last.Fits game ∧ ∀ candidate ∈ group.candidates last, stop? game last candidate = none ∧
      (ordersWin last candidate = true → ordered' = true) := by
  -- the end of the run is an index of the relation, so the induction needs a variable there
  generalize hended : RunEnd.settled = ended at h
  induction h with
  | saturated board ordered => cases hended
  | cancelled ordered ordered' hstop => cases hended
  | settled ordered hboard hstop =>
    refine ⟨hboard, fun candidate hcandidate ↦ ?_⟩
    refine ⟨List.findSome?_eq_none_iff.mp hstop candidate hcandidate, fun hwin ↦ ?_⟩
    rw [List.any_eq_true.mpr ⟨candidate, hcandidate, hwin⟩, Bool.or_true]
  | fired hbefore hstop hrest ih => exact ih hended

/-- An order to win stands, unless the turn is cancelled. -/
theorem ordered_mono (h : group.Runs game start ordered steps last ordered' ended)
    (hended : ended ≠ .cancelled) (hordered : ordered = true) : ordered' = true := by
  induction h with
  | saturated board ordered => exact hordered
  | cancelled ordered ordered' hstop => exact absurd rfl hended
  | settled ordered hboard hstop => rw [hordered, Bool.true_or]
  | fired hbefore hstop hrest ih => exact ih hended (by rw [hordered, Bool.true_or])

theorem exists_ordersWin (h : group.Runs game start ordered steps last ordered' ended)
    (hended : ended ≠ .cancelled) (hbefore : ordered = false) (hafter : ordered' = true) :
    ∃ board ∈ steps.map Step.before ++ [last], ∃ candidate ∈ group.candidates board,
      ordersWin board candidate = true := by
  induction h with
  | saturated board ordered => exact absurd hafter (by simp [hbefore])
  | cancelled ordered ordered' hstop => exact absurd rfl hended
  | @settled board ordered hboard hstop =>
    rw [hbefore, Bool.false_or, List.any_eq_true] at hafter
    exact ⟨board, List.mem_singleton_self board, hafter⟩
  | @fired before after last ordered ordered' firing steps ended hfits hstop hrest ih =>
    -- the win was ordered either while this firing was looked for or later
    by_cases hhere : (tried game before (group.candidates before)).any (ordersWin before) = true
    · obtain ⟨candidate, hcandidate, hwin⟩ := List.any_eq_true.mp hhere
      exact ⟨before, List.mem_cons_self, candidate, mem_of_mem_tried hcandidate, hwin⟩
    · obtain ⟨board, hboard, hwin⟩ :=
        ih hended (by rw [hbefore, eq_false_of_ne_true hhere, Bool.or_false]) hafter
      exact ⟨board, List.mem_cons_of_mem before hboard, hwin⟩

end RuleGroup.Runs

/-! ## Stages -/

/-- The run of one group in the course of a turn. -/
structure Stage where
  group : RuleGroup
  start : Board
  /-- Whether a win was ordered before. -/
  ordered : Bool
  steps : List Step
  run : GroupRun

namespace Stage

/-- The subturn that is recorded for a stage; there is none if no rule fired. -/
def subturn? (stage : Stage) : Option Subturn :=
  if stage.steps.isEmpty then none else some ⟨stage.steps.map Step.firing⟩

/-- The boards that occur while the group runs; the last of them is the one it leaves. -/
def boards (stage : Stage) : List Board := stage.steps.map Step.before ++ [stage.run.board]

/-- The stage is a run of its group. -/
def Runs (game : Game) (stage : Stage) : Prop :=
  stage.group.Runs game stage.start stage.ordered stage.steps stage.run.board
    stage.run.winRequested stage.run.ended

end Stage

/-- The stage of a group that may fire `maxRewrites` times, and at least once. -/
def RuleGroup.stage (game : Game) (maxRewrites : Nat) (group : RuleGroup) (board : Board)
    (ordered : Bool) : Stage where
  group
  start := board
  ordered
  steps := settleSteps game (group.candidates board) (max 1 maxRewrites) board ordered
  run := group.run game maxRewrites board ordered

theorem RuleGroup.runs_stage (hgame : game.IsLayered) (maxRewrites : Nat) (group : RuleGroup)
    {board : Board} (hboard : board.Fits game) (ordered : Bool) :
    (group.stage game maxRewrites board ordered).Runs game :=
  runs_settleGroup hgame group (max 1 maxRewrites) [] hboard ordered

theorem RuleGroup.firings_stage (game : Game) (maxRewrites : Nat) (group : RuleGroup)
    (board : Board) (ordered : Bool) :
    (group.stage game maxRewrites board ordered).run.firings =
      (group.stage game maxRewrites board ordered).steps.map Step.firing :=
  firings_settleGroup (group.candidates board) (max 1 maxRewrites) [] board ordered

/-- The stages of some groups, up to one that cancels the turn. -/
def stages (game : Game) (maxRewrites : Nat) : List RuleGroup → Board → Bool → List Stage
  | [], _, _ => []
  | group :: groups, board, ordered =>
    let stage := group.stage game maxRewrites board ordered
    if stage.run.ended = .cancelled then [stage]
    else stage :: stages game maxRewrites groups stage.run.board stage.run.winRequested

/-! ## From stage to stage -/

namespace TurnState

/-- From one state of a turn to another, without being cancelled, the turn goes through some groups
in stages. -/
structure Follows (game : Game) (state : TurnState) (groups : List RuleGroup)
    (stages : List Stage) (last : TurnState) : Prop where
  groups_eq : stages.map Stage.group = groups
  runs : ∀ stage ∈ stages, stage.Runs game ∧ stage.run.ended ≠ .cancelled
  leads : Leads state.board (stages.flatMap Stage.steps) last.board
  subturns_eq : last.subturns = state.subturns ++ stages.filterMap Stage.subturn?
  settled : last.saturated = [] →
    state.saturated = [] ∧ ∀ stage ∈ stages, stage.run.ended = .settled
  ordered_mono : state.winRequested = true → last.winRequested = true
  winRequested_of_mem : ∀ stage ∈ stages, stage.run.winRequested = true → last.winRequested = true
  exists_mem : state.winRequested = false → last.winRequested = true →
    ∃ stage ∈ stages, stage.ordered = false ∧ stage.run.winRequested = true

theorem Follows.refl (game : Game) (state : TurnState) : state.Follows game [] [] state where
  groups_eq := rfl
  runs := by simp
  leads := rfl
  subturns_eq := (List.append_nil _).symm
  settled h := ⟨h, by simp⟩
  ordered_mono h := h
  winRequested_of_mem := by simp
  exists_mem hno hyes := absurd hyes (by simp [hno])

theorem saturated_afterRun_eq_nil {state : TurnState} {place : Nat} {run : GroupRun}
    (h : (state.afterRun place run).saturated = []) :
    state.saturated = [] ∧ run.ended ≠ .saturated := by
  dsimp only [afterRun] at h
  split at h
  · exact absurd h (by simp)
  · next hended => exact ⟨h, hended⟩

theorem Follows.cons {state last : TurnState} {place : Nat} {stage : Stage}
    {groups : List RuleGroup} {stages : List Stage} (hruns : stage.Runs game)
    (hended : stage.run.ended ≠ .cancelled) (hstart : stage.start = state.board)
    (hordered : stage.ordered = state.winRequested)
    (hfirings : stage.run.firings = stage.steps.map Step.firing)
    (h : (state.afterRun place stage.run).Follows game groups stages last) :
    state.Follows game (stage.group :: groups) (stage :: stages) last where
  groups_eq := congrArg (stage.group :: ·) h.groups_eq
  runs := List.forall_mem_cons.mpr ⟨⟨hruns, hended⟩, h.runs⟩
  leads := by
    have hsteps := hruns.leads
    rw [hstart] at hsteps
    rw [List.flatMap_cons]
    exact leads_append.mpr ⟨stage.run.board, hsteps, h.leads⟩
  subturns_eq := by
    rw [h.subturns_eq, afterRun, hfirings, List.filterMap_cons, Stage.subturn?]
    cases stage.steps <;> simp
  settled hlast := by
    obtain ⟨hnone, hrest⟩ := h.settled hlast
    obtain ⟨hstate, hsaturated⟩ := saturated_afterRun_eq_nil hnone
    refine ⟨hstate, List.forall_mem_cons.mpr ⟨?_, hrest⟩⟩
    cases hrun : stage.run.ended with
    | settled => rfl
    | saturated => exact absurd hrun hsaturated
    | cancelled => exact absurd hrun hended
  ordered_mono hstate :=
    h.ordered_mono (RuleGroup.Runs.ordered_mono hruns hended (hordered.trans hstate))
  winRequested_of_mem := List.forall_mem_cons.mpr ⟨h.ordered_mono, h.winRequested_of_mem⟩
  exists_mem hno hyes := by
    cases hrun : stage.run.winRequested with
    | true => exact ⟨stage, List.mem_cons_self, hordered.trans hno, hrun⟩
    | false =>
      obtain ⟨other, hother, hwin⟩ := h.exists_mem hrun hyes
      exact ⟨other, List.mem_cons_of_mem stage hother, hwin⟩

/-- **A turn that is not cancelled goes through the stages of all its groups.** -/
theorem follows_runGroups (hgame : game.IsLayered) (maxRewrites : Nat) (groups : List RuleGroup)
    (place : Nat) {state : TurnState} (hboard : state.board.Fits game)
    (h : (runGroups game maxRewrites groups place state).cancelled = false) :
    state.Follows game groups (stages game maxRewrites groups state.board state.winRequested)
      (runGroups game maxRewrites groups place state) := by
  induction groups generalizing place state with
  | nil => exact .refl game state
  | cons group groups ih =>
    have hstage := group.runs_stage hgame maxRewrites hboard state.winRequested
    have hfirings := group.firings_stage game maxRewrites state.board state.winRequested
    have hfits := hboard.replay? (group.replay?_run hgame maxRewrites hboard state.winRequested).1
    rw [runGroups] at h ⊢
    by_cases hcancelled : (state.runGroup game maxRewrites place group).cancelled = true
    · rw [if_pos hcancelled, hcancelled] at h
      cases h
    · have hended : (group.stage game maxRewrites state.board state.winRequested).run.ended ≠
          .cancelled := fun hended ↦ hcancelled (decide_eq_true hended)
      rw [if_neg hcancelled] at h ⊢
      rw [stages, if_neg hended]
      exact .cons hstage hended rfl rfl hfirings (ih (place + 1) hfits h)

end TurnState

/-! ## The course of a whole turn -/

namespace Game

/-- The stages of a turn. -/
def stages (game : Game) (maxRewrites : Nat) (input : Option Movement) (board : Board) :
    List Stage :=
  TilePuzzle.stages game maxRewrites game.groups (game.marked input board) false

theorem follows_lastState (hgame : game.IsLayered) {maxRewrites : Nat} {input : Option Movement}
    {board : Board} (hboard : board.Fits game)
    (h : (game.runTurn maxRewrites input board).cancelled = false) :
    TurnState.Follows game ⟨game.marked input board, false, [], [], false⟩ game.groups
      (game.stages maxRewrites input board) (game.lastState maxRewrites input board) := by
  rw [cancelled_runTurn] at h
  exact TurnState.follows_runGroups hgame maxRewrites game.groups 0 (fits_marked input hboard) h

end Game

end TilePuzzle
