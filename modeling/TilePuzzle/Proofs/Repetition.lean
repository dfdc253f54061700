import Mathlib.Data.List.Forall2
import TilePuzzle.Proofs.Search

/-!
# Rules that repeat an earlier one

A rule of one cell does the same in whatever direction it is laid: it matches the same cells and
rewrites them in the same way. Suppose that it stands in its group behind another rule that has the
same cell and gives the same orders. A search comes to it only where the earlier rule did not match,
or matched without effect; then it does not fire or cancel either, and its order to win has been
heard. So it may as well be left out, wherever it stands and whatever other rules stand between the
two: search by search, and hence turn by turn, nothing comes out differently.

## The invariant

At one position, what the induction carries is about the rules that were seen there: none of them
has stopped the search, and every order to win among them has been taken up (`search_of_abridges`).
Between one position and the next nothing has to be carried, since a repetition has its earlier rule
at the same position.
-/

namespace TilePuzzle

/-! ## Repetitions -/

/-- The rule has one cell, and the earlier rule has the same cell and gives the same orders. -/
structure Rule.Repeats (rule earlier : Rule) : Prop where
  length_cells : rule.cells.length = 1
  cells_eq : earlier.cells = rule.cells
  commands_eq : earlier.commands = rule.commands

/-- From a list of rules that come after the rules `seen`, some are left out, each of which repeats
a rule before it that is not left out. -/
inductive Rule.Abridges : List Rule → List Rule → List Rule → Prop
  | nil (seen : List Rule) : Abridges seen [] []
  | keep {seen all kept : List Rule} (rule : Rule) (h : Abridges (rule :: seen) all kept) :
      Abridges seen (rule :: all) (rule :: kept)
  | drop {seen all kept : List Rule} {rule : Rule}
      (hrepeats : ∃ earlier ∈ seen, rule.Repeats earlier) (h : Abridges seen all kept) :
      Abridges seen (rule :: all) kept

/-- From the rules of a group, some repetitions are left out. -/
def RuleGroup.Abridges (all kept : RuleGroup) : Prop := Rule.Abridges [] all.rules kept.rules

namespace Rule.Abridges

variable {seen seen' all all' kept kept' : List Rule}

theorem mono (h : Abridges seen all kept) (hseen : ∀ rule ∈ seen, rule ∈ seen') :
    Abridges seen' all kept := by
  induction h generalizing seen' with
  | nil seen => exact .nil seen'
  | keep rule h ih =>
    refine .keep rule (ih fun other hother ↦ ?_)
    rcases List.mem_cons.mp hother with rfl | hother
    · exact List.mem_cons_self
    · exact List.mem_cons_of_mem rule (hseen other hother)
  | drop hrepeats h ih =>
    obtain ⟨earlier, hearlier, hrepeats⟩ := hrepeats
    exact .drop ⟨earlier, hseen earlier hearlier, hrepeats⟩ (ih hseen)

theorem append (h : Abridges seen all kept) (h' : Abridges seen all' kept') :
    Abridges seen (all ++ all') (kept ++ kept') := by
  induction h with
  | nil seen => exact h'
  | keep rule h ih =>
    exact .keep rule (ih (h'.mono fun other hother ↦ List.mem_cons_of_mem rule hother))
  | drop hrepeats h ih => exact .drop hrepeats (ih h')

end Rule.Abridges

/-! ## What a repetition does -/

namespace Rule.Repeats

variable {game : Game} {rule earlier : Rule}

theorem match?_eq (h : rule.Repeats earlier) (board : Board) (origin : Position) :
    rule.match? board origin = earlier.match? board origin := by
  obtain ⟨pattern, hcells⟩ := List.length_eq_one_iff.mp h.length_cells
  rw [match?, match?, h.cells_eq, hcells]
  rfl

/-- The direction of a rule is where it goes on from its first cell, and here there is no other. -/
theorem rewrite_eq (h : rule.Repeats earlier) (board : Board) (origin : Position)
    (bindings : List (List Binding)) :
    rule.rewrite game board origin bindings = earlier.rewrite game board origin bindings := by
  obtain ⟨pattern, hcells⟩ := List.length_eq_one_iff.mp h.length_cells
  rw [rewrite, rewrite, h.cells_eq, hcells]
  cases bindings with
  | nil => rfl
  | cons first rest => rfl

theorem ordersWin_eq (h : rule.Repeats earlier) (board : Board) (origin : Position) :
    ordersWin board (origin, rule) = ordersWin board (origin, earlier) := by
  rw [ordersWin, ordersWin, h.match?_eq, h.commands_eq]

theorem stop?_eq_none (h : rule.Repeats earlier) {board : Board} {origin : Position}
    (hearlier : stop? game board (origin, earlier) = none) :
    stop? game board (origin, rule) = none := by
  rw [stop?_eq_none_iff] at hearlier ⊢
  intro bindings hmatch
  rw [h.rewrite_eq, ← h.commands_eq]
  exact hearlier bindings (h.match?_eq board origin ▸ hmatch)

end Rule.Repeats

/-! ## Games with other groups -/

section WithGroups

variable (game : Game) (groups : List RuleGroup)

/-- A rewriting asks the game for its objects only. -/
theorem rewriteCells_withGroups (direction : Direction) (row : List (RuleCell × List Binding))
    (position : Position) (board : Board) :
    rewriteCells { game with groups } direction row position board =
      rewriteCells game direction row position board := by
  induction row generalizing position board with
  | nil => rfl
  | cons first rest ih =>
    rw [rewriteCells, rewriteCells]
    simp only [ih]
    rfl

theorem Rule.rewrite_withGroups (rule : Rule) (board : Board) (origin : Position)
    (bindings : List (List Binding)) :
    rule.rewrite { game with groups } board origin bindings =
      rule.rewrite game board origin bindings := by
  rw [rewrite, rewriteCells_withGroups]
  rfl

@[simp] theorem stop?_withGroups (board : Board) (candidate : Position × Rule) :
    stop? { game with groups } board candidate = stop? game board candidate := by
  rw [stop?]
  simp only [Rule.rewrite_withGroups]
  rfl

end WithGroups

/-! ## Searching -/

variable {game : Game} {board : Board} {groups : List RuleGroup}

/-- At one position, the repetitions may be left out. The rules seen before have not stopped the
search, and their orders to win are taken up. -/
theorem search_of_abridges (hgame : game.IsLayered) (hboard : board.Fits game)
    {seen all kept : List Rule} (h : Rule.Abridges seen all kept) {origin : Position}
    {candidates candidates' : List (Position × Rule)}
    (hrest : ∀ winRequested, search { game with groups } candidates board winRequested =
      search game candidates' board winRequested)
    {winRequested : Bool}
    (hseen : ∀ rule ∈ seen, stop? game board (origin, rule) = none ∧
      (ordersWin board (origin, rule) = true → winRequested = true)) :
    search { game with groups } (all.map (fun rule ↦ (origin, rule)) ++ candidates) board
        winRequested =
      search game (kept.map (fun rule ↦ (origin, rule)) ++ candidates') board winRequested := by
  have hplain : ({ game with groups } : Game).IsLayered := ⟨hgame.1, hgame.2⟩
  have hboard' : board.Fits { game with groups } := fun cell hcell ↦
    ⟨(hboard cell hcell).1, (hboard cell hcell).2⟩
  induction h generalizing winRequested with
  | nil seen => exact hrest winRequested
  | keep rule h ih =>
    rw [List.map_cons, List.map_cons, List.cons_append, List.cons_append, search_cons hgame hboard,
      search_cons hplain hboard', stop?_withGroups]
    cases hstop : stop? game board (origin, rule) with
    | none =>
      refine ih fun other hother ↦ ?_
      rcases List.mem_cons.mp hother with rfl | hother
      · exact ⟨hstop, fun hwin ↦ by rw [hwin, Bool.or_true]⟩
      · obtain ⟨hnone, hwin⟩ := hseen other hother
        exact ⟨hnone, fun h ↦ by rw [hwin h, Bool.true_or]⟩
    | some stop =>
      cases stop with
      | cancel => rfl
      | fire after firing => rfl
  | @drop seen all kept rule hrepeats h ih =>
    obtain ⟨earlier, hearlier, hrepeats⟩ := hrepeats
    obtain ⟨hnone, hwin⟩ := hseen earlier hearlier
    -- the repetition does not stop the search, and its order to win is no news
    have horder : (winRequested || ordersWin board (origin, rule)) = winRequested := by
      rw [hrepeats.ordersWin_eq]
      cases hearlierWin : ordersWin board (origin, earlier) with
      | false => exact Bool.or_false winRequested
      | true => rw [hwin hearlierWin, Bool.or_true]
    rw [List.map_cons, List.cons_append, search_cons hplain hboard', stop?_withGroups,
      hrepeats.stop?_eq_none hnone, horder]
    exact ih hseen

/-- **A search does not miss repetitions.** -/
theorem search_candidates_of_abridges (hgame : game.IsLayered) (hboard : board.Fits game)
    {group kept : RuleGroup} (h : group.Abridges kept) (winRequested : Bool) :
    search { game with groups } (group.candidates board) board winRequested =
      search game (kept.candidates board) board winRequested := by
  rw [RuleGroup.candidates, RuleGroup.candidates]
  induction board.positions generalizing winRequested with
  | nil => rfl
  | cons origin positions ih =>
    rw [List.flatMap_cons, List.flatMap_cons]
    exact search_of_abridges hgame hboard h ih fun _ hnil ↦ absurd hnil List.not_mem_nil

/-! ## Running groups -/

theorem settleGroup_of_abridges (hgame : game.IsLayered) {group kept : RuleGroup}
    (h : group.Abridges kept) (budget : Nat) (fired : List Firing) (hboard : board.Fits game)
    (winRequested : Bool) :
    settleGroup { game with groups } (group.candidates board) budget fired board winRequested =
      settleGroup game (kept.candidates board) budget fired board winRequested := by
  induction budget generalizing fired board winRequested with
  | zero => rfl
  | succ budget ih =>
    have hreplay := replay?_search hgame (kept.candidates board) hboard winRequested
    rw [settleGroup, settleGroup, search_candidates_of_abridges hgame hboard h]
    generalize search game (kept.candidates board) board winRequested = found at hreplay
    obtain ⟨after, winRequested', ended⟩ := found
    cases ended with
    | cancelled => rfl
    | settled => rfl
    | fired firing =>
      have hshape := Board.replay?_sameShape hreplay
      have hafter := ih (firing :: fired) (hboard.replay? hreplay) winRequested'
      rw [group.candidates_sameShape hshape, kept.candidates_sameShape hshape] at hafter
      exact hafter

theorem TurnState.runGroup_of_abridges (hgame : game.IsLayered) {state : TurnState}
    (hboard : state.board.Fits game) {group kept : RuleGroup} (h : group.Abridges kept)
    (maxRewrites place : Nat) :
    state.runGroup { game with groups } maxRewrites place group =
      state.runGroup game maxRewrites place kept := by
  rw [runGroup_eq, runGroup_eq, RuleGroup.run, RuleGroup.run,
    settleGroup_of_abridges hgame h _ _ hboard]

theorem runGroups_of_abridges (hgame : game.IsLayered) (maxRewrites : Nat)
    {all kept : List RuleGroup} (h : List.Forall₂ RuleGroup.Abridges all kept) (place : Nat)
    {state : TurnState} (hboard : state.board.Fits game) :
    runGroups { game with groups } maxRewrites all place state =
      runGroups game maxRewrites kept place state := by
  induction h generalizing place state with
  | nil => rfl
  | @cons group kept groups' kepts hgroup hgroups ih =>
    have hfits := hboard.replay? (kept.replay?_run hgame maxRewrites hboard state.winRequested).1
    rw [runGroups, runGroups, TurnState.runGroup_of_abridges hgame hboard hgroup]
    split
    · rfl
    · exact ih (place + 1) hfits

/-! ## Turns -/

/-- **Turns do not miss repetitions**: a game from which some are left out plays as before. -/
theorem Game.runTurn_of_abridges (hgame : game.IsLayered)
    (h : List.Forall₂ RuleGroup.Abridges groups game.groups) (hboard : board.Fits game)
    (maxRewrites : Nat) (input : Option Movement) :
    ({ game with groups } : Game).runTurn maxRewrites input board =
      game.runTurn maxRewrites input board := by
  have hlast : ({ game with groups } : Game).lastState maxRewrites input board =
      game.lastState maxRewrites input board :=
    runGroups_of_abridges hgame maxRewrites h 0 (fits_marked input hboard)
  rw [runTurn_eq, runTurn_eq, hlast]
  rfl

end TilePuzzle
