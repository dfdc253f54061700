import Mathlib.Algebra.Order.BigOperators.Group.List
import Mathlib.Algebra.Order.Group.Nat
import TilePuzzle.Proofs.Course

/-!
# Every turn ends

A group fires again and again, and nothing in its rules keeps it from doing so for ever. What ends
its run is a count: after each firing the firings so far are counted, and when they reach the bound
the group is cut short.

## The loop

To see that this is enough, the run is written down here as the plain loop that it is
(`RuleGroup.LoopsTo`), with the count but without a budget that runs out; a loop that never ends
comes to nothing. The loop always comes to one result, and it is the run of the group.

The engine counts a budget down where the loop counts firings up. What the induction carries is that
the two add up to the bound: each firing takes one from the budget and adds one to the count.

## The account

The second half keeps the account of a turn (`Accounts`): how often each group fired, which groups
are said to be saturated and what the record says of each of them. It is passed on from one state of
the turn to the next, stage by stage. Nothing is assumed of the game or of the board.
-/

namespace TilePuzzle

/-! ## The loop of a group -/

/-- The loop of a group comes to a result: the board is searched again and again and the firings are
counted. Those so far are listed, the latest first. -/
inductive RuleGroup.LoopsTo (game : Game) (group : RuleGroup) (maxRewrites : Nat) :
    List Firing → Board → Bool → GroupRun → Prop
  /-- The firing that reaches the bound is the last one. -/
  | saturated {fired : List Firing} {firing : Firing} {board after : Board}
      {winRequested winRequested' : Bool}
      (found : search game (group.candidates board) board winRequested =
        ⟨after, winRequested', .fired firing⟩)
      (reached : maxRewrites ≤ (firing :: fired).length) :
      LoopsTo game group maxRewrites fired board winRequested
        ⟨after, winRequested', (firing :: fired).reverse, .saturated⟩
  /-- After any other firing the loop goes on. -/
  | again {fired : List Firing} {firing : Firing} {board after : Board}
      {winRequested winRequested' : Bool} {run : GroupRun}
      (found : search game (group.candidates board) board winRequested =
        ⟨after, winRequested', .fired firing⟩)
      (below : ¬maxRewrites ≤ (firing :: fired).length)
      (rest : LoopsTo game group maxRewrites (firing :: fired) after winRequested' run) :
      LoopsTo game group maxRewrites fired board winRequested run
  | cancelled {fired : List Firing} {board after : Board} {winRequested winRequested' : Bool}
      (found : search game (group.candidates board) board winRequested =
        ⟨after, winRequested', .cancelled⟩) :
      LoopsTo game group maxRewrites fired board winRequested
        ⟨after, winRequested', fired.reverse, .cancelled⟩
  | settled {fired : List Firing} {board after : Board} {winRequested winRequested' : Bool}
      (found : search game (group.candidates board) board winRequested =
        ⟨after, winRequested', .settled⟩) :
      LoopsTo game group maxRewrites fired board winRequested
        ⟨after, winRequested', fired.reverse, .settled⟩

/-- Groups that run one after the other, each as a loop, come to a state; the first of them is in a
given place. A group that cancels the turn is the last one. -/
inductive TurnState.LoopsTo (game : Game) (maxRewrites : Nat) :
    TurnState → Nat → List RuleGroup → TurnState → Prop
  | done {state : TurnState} {place : Nat} : LoopsTo game maxRewrites state place [] state
  | cancelled {state : TurnState} {place : Nat} {group : RuleGroup} {groups : List RuleGroup}
      {run : GroupRun}
      (first : group.LoopsTo game maxRewrites [] state.board state.winRequested run)
      (ended : (state.afterRun place run).cancelled = true) :
      LoopsTo game maxRewrites state place (group :: groups) (state.afterRun place run)
  | next {state last : TurnState} {place : Nat} {group : RuleGroup} {groups : List RuleGroup}
      {run : GroupRun}
      (first : group.LoopsTo game maxRewrites [] state.board state.winRequested run)
      (ended : ¬(state.afterRun place run).cancelled = true)
      (rest : LoopsTo game maxRewrites (state.afterRun place run) (place + 1) groups last) :
      LoopsTo game maxRewrites state place (group :: groups) last

/-- A turn in which every group is a loop comes to a result. -/
def Game.LoopsTo (game : Game) (maxRewrites : Nat) (input : Option Movement) (board : Board)
    (turn : Turn) : Prop :=
  ∃ last, TurnState.LoopsTo game maxRewrites ⟨game.marked input board, false, [], [], false⟩ 0
    game.groups last ∧ turn = game.finishTurn input last

/-! ## Searches keep the size of the board -/

theorem sameShape_rewriteCells (game : Game) (direction : Direction)
    (row : List (RuleCell × List Binding)) (position : Position) (board : Board) :
    board.SameShape (rewriteCells game direction row position board).1 := by
  induction row generalizing position board with
  | nil => exact .refl board
  | cons first rest ih =>
    obtain ⟨pattern, bindings⟩ := first
    rw [rewriteCells]
    split
    · exact ih _ board
    · dsimp only
      split
      · exact ih _ board
      · exact (Board.sameShape_setCell board position _).trans (ih _ _)

theorem sameShape_search (game : Game) (candidates : List (Position × Rule)) (board : Board)
    (winRequested : Bool) :
    board.SameShape (search game candidates board winRequested).board := by
  induction candidates generalizing board winRequested with
  | nil => exact .refl board
  | cons first rest ih =>
    obtain ⟨origin, rule⟩ := first
    rw [search]
    split
    · exact ih board winRequested
    · next bindings hmatch =>
      split
      · exact .refl board
      · have hrewrite : board.SameShape (rule.rewrite game board origin bindings).1 :=
          sameShape_rewriteCells game rule.direction _ origin board
        split
        · next after heq =>
          rw [heq] at hrewrite
          exact hrewrite.trans (ih after _)
        · next after cell cells heq =>
          rw [heq] at hrewrite
          exact hrewrite

/-! ## Loops end -/

namespace RuleGroup

/-- The board keeps its size, so the next search has the same candidates. -/
theorem candidates_of_search {game : Game} (group : RuleGroup) {board after : Board}
    {winRequested winRequested' : Bool} {ended : SearchEnd}
    (found : search game (group.candidates board) board winRequested =
      ⟨after, winRequested', ended⟩) : group.candidates after = group.candidates board := by
  have hshape := sameShape_search game (group.candidates board) board winRequested
  rw [found] at hshape
  exact group.candidates_sameShape hshape

variable {game : Game} {group : RuleGroup} {maxRewrites budget : Nat} {fired : List Firing}
  {board : Board} {winRequested : Bool} {run : GroupRun}

/-- As long as firings are left, the loop ends, and its result is the run of the group: counting the
firings up to the bound is counting a budget down. -/
theorem loopsTo_settleGroup (hbudget : budget + 1 + fired.length = max 1 maxRewrites)
    (board : Board) (winRequested : Bool) : group.LoopsTo game maxRewrites fired board winRequested
      (settleGroup game (group.candidates board) (budget + 1) fired board winRequested) := by
  induction budget generalizing fired board winRequested with
  | zero =>
    rw [settleGroup]
    cases hfound : search game (group.candidates board) board winRequested with
    | mk after winRequested' ended =>
      cases ended with
      | fired firing =>
        refine .saturated hfound ?_
        rw [List.length_cons]
        omega
      | cancelled => exact .cancelled hfound
      | settled => exact .settled hfound
  | succ budget ih =>
    rw [settleGroup]
    cases hfound : search game (group.candidates board) board winRequested with
    | mk after winRequested' ended =>
      cases ended with
      | fired firing =>
        have hcount : budget + 1 + (firing :: fired).length = max 1 maxRewrites := by
          rw [List.length_cons]
          omega
        refine .again hfound (by omega) ?_
        rw [← group.candidates_of_search hfound]
        exact ih hcount after winRequested'
      | cancelled => exact .cancelled hfound
      | settled => exact .settled hfound

theorem LoopsTo.eq_settleGroup (h : group.LoopsTo game maxRewrites fired board winRequested run)
    (hbudget : budget + 1 + fired.length = max 1 maxRewrites) :
    run = settleGroup game (group.candidates board) (budget + 1) fired board winRequested := by
  induction h generalizing budget with
  | @saturated fired firing board after _ _ found reached =>
    rw [List.length_cons] at reached
    obtain rfl : budget = 0 := by omega
    rw [settleGroup, found]
    rfl
  | @again fired firing board after _ _ _ found below rest ih =>
    rw [List.length_cons] at below
    obtain ⟨budget, rfl⟩ : ∃ left, budget = left + 1 := ⟨budget - 1, by omega⟩
    rw [settleGroup, found, ← group.candidates_of_search found]
    exact ih (by rw [List.length_cons]; omega)
  | cancelled found => rw [settleGroup, found]
  | settled found => rw [settleGroup, found]

/-- **The loop of a group ends**, and its result is the run of the group. -/
theorem loopsTo_iff : group.LoopsTo game maxRewrites [] board winRequested run ↔
    run = group.run game maxRewrites board winRequested := by
  have hpos : max 1 maxRewrites - 1 + 1 = max 1 maxRewrites := by omega
  have hrun := @loopsTo_settleGroup game group maxRewrites (max 1 maxRewrites - 1) [] hpos board
    winRequested
  constructor
  · intro h
    rw [h.eq_settleGroup hpos, hpos]
    rfl
  · rintro rfl
    rwa [hpos] at hrun

end RuleGroup

theorem TurnState.loopsTo_iff {game : Game} {maxRewrites place : Nat} {groups : List RuleGroup}
    {state last : TurnState} : state.LoopsTo game maxRewrites place groups last ↔
      last = runGroups game maxRewrites groups place state := by
  induction groups generalizing place state last with
  | nil =>
    constructor
    · rintro ⟨⟩
      rfl
    · rintro rfl
      exact .done
  | cons group groups ih =>
    rw [runGroups, runGroup_eq]
    constructor
    · rintro (_ | ⟨first, ended⟩ | ⟨first, ended, rest⟩)
      · obtain rfl := RuleGroup.loopsTo_iff.mp first
        exact (if_pos ended).symm
      · obtain rfl := RuleGroup.loopsTo_iff.mp first
        exact (ih.mp rest).trans (if_neg ended).symm
    · rintro rfl
      by_cases ended : (state.afterRun place
          (group.run game maxRewrites state.board state.winRequested)).cancelled = true
      · rw [if_pos ended]
        exact .cancelled (RuleGroup.loopsTo_iff.mpr rfl) ended
      · rw [if_neg ended]
        exact .next (RuleGroup.loopsTo_iff.mpr rfl) ended (ih.mpr rfl)

/-- **Every turn ends.** -/
theorem Game.loopsTo_iff {game : Game} {maxRewrites : Nat} {input : Option Movement} {board : Board}
    {turn : Turn} : game.LoopsTo maxRewrites input board turn ↔
      turn = game.runTurn maxRewrites input board := by
  simp only [LoopsTo, TurnState.loopsTo_iff, exists_eq_left]
  rfl

/-! ## The firings of a group -/

/-- A run fires within its budget, and it is cut short just when it uses the budget up. -/
theorem length_firings_settleGroup (game : Game) (candidates : List (Position × Rule))
    (budget : Nat) (fired : List Firing) (board : Board) (winRequested : Bool) :
    let run := settleGroup game candidates budget fired board winRequested
    run.firings.length ≤ fired.length + budget ∧
      (run.ended = .saturated ↔ run.firings.length = fired.length + budget) := by
  induction budget generalizing fired board winRequested with
  | zero => simp [settleGroup]
  | succ budget ih =>
    rw [settleGroup]
    generalize search game candidates board winRequested = found
    obtain ⟨after, winRequested', ended⟩ := found
    cases ended with
    | fired firing =>
      have hlength : (firing :: fired).length + budget = fired.length + (budget + 1) := by
        rw [List.length_cons]
        omega
      rw [← hlength]
      exact ih (firing :: fired) after winRequested'
    | cancelled => simp
    | settled => simp

theorem RuleGroup.length_firings_run (group : RuleGroup) (game : Game) (maxRewrites : Nat)
    (board : Board) (winRequested : Bool) :
    let run := group.run game maxRewrites board winRequested
    run.firings.length ≤ max 1 maxRewrites ∧
      (run.ended = .saturated ↔ run.firings.length = max 1 maxRewrites) := by
  have h := length_firings_settleGroup game (group.candidates board) (max 1 maxRewrites) [] board
    winRequested
  rwa [List.length_nil, Nat.zero_add] at h

/-! ## The account of several groups -/

/-- The places of the stages that were cut short; the first of the stages is in a given place. -/
def saturatedPlaces (place : Nat) (stages : List Stage) : List Nat :=
  ((stages.zipIdx place).filter fun (stage, _) ↦ stage.run.ended = .saturated).map Prod.snd

theorem mem_saturatedPlaces {stages : List Stage} {place : Nat} :
    place ∈ saturatedPlaces 0 stages ↔
      ∃ stage, stages[place]? = some stage ∧ stage.run.ended = .saturated := by
  simp [saturatedPlaces, List.mem_zipIdx_iff_getElem?]

theorem pairwise_saturatedPlaces (place : Nat) (stages : List Stage) :
    (saturatedPlaces place stages).Pairwise (· < ·) := by
  refine List.Pairwise.sublist (List.filter_sublist.map Prod.snd) ?_
  rw [List.zipIdx_map_snd]
  exact List.pairwise_lt_range'

/-- Every stage is a run of a group that begins where the stage before it ended, so the firings of
each keep to the bound. -/
theorem length_firings_of_mem_stages {game : Game} {maxRewrites : Nat} {groups : List RuleGroup}
    {board : Board} {ordered : Bool} {stage : Stage}
    (h : stage ∈ stages game maxRewrites groups board ordered) :
    stage.run.firings.length ≤ max 1 maxRewrites ∧
      (stage.run.ended = .saturated ↔ stage.run.firings.length = max 1 maxRewrites) := by
  induction groups generalizing board ordered with
  | nil => exact absurd h List.not_mem_nil
  | cons group groups ih =>
    have hfirst := group.length_firings_run game maxRewrites board ordered
    rw [stages] at h
    split at h
    · obtain rfl := List.mem_singleton.mp h
      exact hfirst
    · rcases List.mem_cons.mp h with rfl | h
      · exact hfirst
      · exact ih h

namespace TurnState

/-- What a turn says when some more groups have run: each of them has its stage, unless one cancels
the turn, each stage with firings has its subturn, and the stages that were cut short are noted. -/
structure Accounts (state : TurnState) (groups : List RuleGroup) (place : Nat)
    (stages : List Stage) (last : TurnState) : Prop where
  prefix_groups : stages.map Stage.group <+: groups
  groups_eq : last.cancelled = false → stages.map Stage.group = groups
  saturated_eq : last.saturated = state.saturated ++ saturatedPlaces place stages
  firings_eq : last.subturns.map Subturn.firings = state.subturns.map Subturn.firings ++
    (stages.map fun stage ↦ stage.run.firings).filter (!·.isEmpty)

theorem Accounts.refl (state : TurnState) (place : Nat) : state.Accounts [] place [] state where
  prefix_groups := List.prefix_rfl
  groups_eq _ := rfl
  saturated_eq := (List.append_nil _).symm
  firings_eq := (List.append_nil _).symm

theorem saturated_afterRun (state : TurnState) (place : Nat) (stage : Stage) :
    (state.afterRun place stage.run).saturated =
      state.saturated ++ saturatedPlaces place [stage] := by
  by_cases h : stage.run.ended = .saturated
  · simp [afterRun, saturatedPlaces, h]
  · simp [afterRun, saturatedPlaces, h]

theorem firings_afterRun (state : TurnState) (place : Nat) (run : GroupRun) :
    (state.afterRun place run).subturns.map Subturn.firings =
      state.subturns.map Subturn.firings ++ [run.firings].filter (!·.isEmpty) := by
  by_cases h : run.firings.isEmpty = true
  · simp [afterRun, h]
  · simp [afterRun, h]

theorem saturatedPlaces_cons (place : Nat) (stage : Stage) (stages : List Stage) :
    saturatedPlaces place (stage :: stages) =
      saturatedPlaces place [stage] ++ saturatedPlaces (place + 1) stages := by
  rw [saturatedPlaces, List.zipIdx_cons, ← List.singleton_append, List.filter_append,
    List.map_append]
  rfl

theorem Accounts.cons (stage : Stage) {state last : TurnState} {groups : List RuleGroup}
    {place : Nat} {stages : List Stage}
    (h : (state.afterRun place stage.run).Accounts groups (place + 1) stages last) :
    state.Accounts (stage.group :: groups) place (stage :: stages) last where
  prefix_groups := (List.prefix_cons_inj stage.group).mpr h.prefix_groups
  groups_eq hlast := congrArg (stage.group :: ·) (h.groups_eq hlast)
  saturated_eq := by
    rw [h.saturated_eq, saturated_afterRun, List.append_assoc,
      ← saturatedPlaces_cons place stage stages]
  firings_eq := by
    rw [h.firings_eq, firings_afterRun, List.append_assoc, ← List.filter_append]
    rfl

/-- **Some more groups are accounted for**, whether or not one of them cancels the turn. -/
theorem accounts_runGroups (game : Game) (maxRewrites : Nat) (groups : List RuleGroup)
    (place : Nat) (state : TurnState) :
    state.Accounts groups place (stages game maxRewrites groups state.board state.winRequested)
      (runGroups game maxRewrites groups place state) := by
  induction groups generalizing place state with
  | nil => exact .refl state place
  | cons group groups ih =>
    have hrest := ih (place + 1) (state.runGroup game maxRewrites place group)
    have hcons := @Accounts.cons (group.stage game maxRewrites state.board state.winRequested) state
    rw [runGroups, stages]
    by_cases hcancelled : (state.runGroup game maxRewrites place group).cancelled = true
    · have hended : (group.stage game maxRewrites state.board state.winRequested).run.ended =
          .cancelled := of_decide_eq_true hcancelled
      rw [if_pos hcancelled, if_pos hended]
      -- the other groups do not run any more
      have hfirst := hcons (Accounts.refl (state.runGroup game maxRewrites place group) (place + 1))
      refine ⟨?_, ?_, hfirst.saturated_eq, hfirst.firings_eq⟩
      · exact hfirst.prefix_groups.trans ((List.prefix_cons_inj group).mpr List.nil_prefix)
      · intro hnot
        rw [hcancelled] at hnot
        cases hnot
    · have hended : ¬(group.stage game maxRewrites state.board state.winRequested).run.ended =
          .cancelled := fun hended ↦ hcancelled (decide_eq_true hended)
      rw [if_neg hcancelled, if_neg hended]
      exact hcons hrest

end TurnState

/-! ## The account of a turn -/

namespace Game

variable {maxRewrites : Nat} {input : Option Movement} {board : Board}

theorem accounts_lastState (game : Game) (maxRewrites : Nat) (input : Option Movement)
    (board : Board) :
    TurnState.Accounts ⟨game.marked input board, false, [], [], false⟩ game.groups 0
      (game.stages maxRewrites input board) (game.lastState maxRewrites input board) :=
  TurnState.accounts_runGroups game maxRewrites game.groups 0 _

theorem saturated_runTurn (game : Game) (maxRewrites : Nat) (input : Option Movement)
    (board : Board) : (game.runTurn maxRewrites input board).saturated =
      saturatedPlaces 0 (game.stages maxRewrites input board) := by
  have hlast := (game.accounts_lastState maxRewrites input board).saturated_eq
  rw [List.nil_append] at hlast
  rw [runTurn_eq, finishTurn, ← hlast]
  split <;> rfl

theorem firings_runTurn {game : Game}
    (h : (game.runTurn maxRewrites input board).cancelled = false) :
    (game.runTurn maxRewrites input board).record.subturns.map Subturn.firings =
      ((game.stages maxRewrites input board).map fun stage ↦ stage.run.firings).filter
        (!·.isEmpty) := by
  rw [runTurn_of_not_cancelled h]
  exact (game.accounts_lastState maxRewrites input board).firings_eq

theorem firingCount_runTurn_le (game : Game) (maxRewrites : Nat) (input : Option Movement)
    (board : Board) : (game.runTurn maxRewrites input board).record.firingCount ≤
      max 1 maxRewrites * game.groups.length := by
  cases h : (game.runTurn maxRewrites input board).cancelled with
  | true =>
    rw [cancelled_runTurn] at h
    rw [runTurn_eq, finishTurn, if_pos h]
    exact Nat.zero_le _
  | false =>
    have hgroups := (game.accounts_lastState maxRewrites input board).prefix_groups.length_le
    rw [List.length_map] at hgroups
    calc
      (game.runTurn maxRewrites input board).record.firingCount
        = ((game.runTurn maxRewrites input board).record.subturns.map
            Subturn.firings).flatten.length := rfl
      _ = ((game.stages maxRewrites input board).map fun stage ↦ stage.run.firings.length).sum := by
          rw [firings_runTurn h, List.flatten_filter_not_isEmpty, List.length_flatten, List.map_map]
          rfl
      _ ≤ ((game.stages maxRewrites input board).map fun stage ↦
            stage.run.firings.length).length • max 1 maxRewrites := by
          refine List.sum_le_card_nsmul _ _ fun count hcount ↦ ?_
          obtain ⟨stage, hstage, rfl⟩ := List.mem_map.mp hcount
          exact (length_firings_of_mem_stages hstage).1
      _ ≤ max 1 maxRewrites * game.groups.length := by
          rw [List.length_map, Nat.nsmul_eq_mul, Nat.mul_comm]
          exact Nat.mul_le_mul_left _ hgroups

end Game

/-- The account of a turn, by the stages of its groups. -/
structure Turn.Accounts (game : Game) (bound : Nat) (stages : List Stage) (turn : Turn) :
    Prop where
  /-- The groups run in order, and all of them unless the turn is cancelled. -/
  prefix_groups : stages.map Stage.group <+: game.groups
  groups_eq : turn.cancelled = false → stages.map Stage.group = game.groups
  /-- No group fires more often than it may. -/
  length_firings_le : ∀ stage ∈ stages, stage.run.firings.length ≤ bound
  /-- The groups that are said to be saturated are those that fired as often as they may. -/
  mem_saturated_iff : ∀ place, place ∈ turn.saturated ↔
    ∃ stage, stages[place]? = some stage ∧ stage.run.firings.length = bound
  saturated_pairwise : turn.saturated.Pairwise (· < ·)
  /-- The record has one subturn for each group that fired, in order, with just its firings. -/
  firings_eq : turn.cancelled = false → turn.record.subturns.map Subturn.firings =
    (stages.map fun stage ↦ stage.run.firings).filter (!·.isEmpty)
  firingCount_le : turn.record.firingCount ≤ bound * game.groups.length

/-- **Every turn ends within its bound and accounts for its groups**, whatever the game and the
board are: run as a loop it comes to the turn, and to nothing else. -/
theorem Game.runTurn_accounts (game : Game) (maxRewrites : Nat) (input : Option Movement)
    (board : Board) :
    (∀ turn, game.LoopsTo maxRewrites input board turn ↔
      turn = game.runTurn maxRewrites input board) ∧
      (game.runTurn maxRewrites input board).Accounts game (max 1 maxRewrites)
        (game.stages maxRewrites input board) := by
  have hlast := game.accounts_lastState maxRewrites input board
  refine ⟨fun turn ↦ game.loopsTo_iff, ?_⟩
  constructor
  case prefix_groups => exact hlast.prefix_groups
  case groups_eq =>
    intro h
    rw [cancelled_runTurn] at h
    exact hlast.groups_eq h
  case length_firings_le => exact fun stage hstage ↦ (length_firings_of_mem_stages hstage).1
  case mem_saturated_iff =>
    intro place
    rw [saturated_runTurn, mem_saturatedPlaces]
    refine exists_congr fun stage ↦ and_congr_right fun hstage ↦ ?_
    exact (length_firings_of_mem_stages (List.mem_of_getElem? hstage)).2
  case saturated_pairwise =>
    rw [saturated_runTurn]
    exact pairwise_saturatedPlaces 0 _
  case firings_eq => exact firings_runTurn
  case firingCount_le => exact game.firingCount_runTurn_le maxRewrites input board

end TilePuzzle
