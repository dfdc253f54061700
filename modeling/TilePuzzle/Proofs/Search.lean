import TilePuzzle.Proofs.Row
import TilePuzzle.Proofs.Turn

/-!
# What a search finds

A search tries rule after rule on the live board and goes on with whatever board a rewriting leaves.
The same can be said without touching the board. Each candidate is judged on the board as it stands:
it *stops* the search if its rule matches and cancels the turn, or if rewriting a copy of the board
gives another one.

## The first candidate that stops it

A rewriting without effect leaves no trace, so the search ends at the first candidate that stops it,
and the orders to win that it takes up are those of the candidates up to there (`tried`). One
candidate is the step of the induction (`search_cons`), and `search_spec` says it of the whole
search.
-/

namespace TilePuzzle

variable {game : Game} {board : Board}

/-! ## Judging a candidate -/

/-- How a candidate may stop a search. -/
inductive Stop
  /-- Its rule matches and cancels the turn. -/
  | cancel
  /-- Its rule turns the board into another one. -/
  | fire (after : Board) (firing : Firing)

/-- How a candidate stops a search of a board, if it does. -/
def stop? (game : Game) (board : Board) (candidate : Position × Rule) : Option Stop :=
  match candidate.2.match? board candidate.1 with
  | none => none
  | some bindings =>
    if candidate.2.commands.cancel then
      some .cancel
    else
      match candidate.2.rewrite game board candidate.1 bindings with
      | (copy, cells) =>
        if copy = board then none
        else some (.fire copy ⟨candidate.2.line, candidate.2.direction, candidate.1, cells⟩)

/-- Whether the rule of a candidate matches and orders a win. -/
def ordersWin (board : Board) (candidate : Position × Rule) : Bool :=
  (candidate.2.match? board candidate.1).isSome && candidate.2.commands.win

/-- The candidates that are tried: all up to the first that stops the search, and this one. -/
def tried (game : Game) (board : Board) (candidates : List (Position × Rule)) :
    List (Position × Rule) :=
  candidates.take (candidates.findIdx (fun candidate ↦ (stop? game board candidate).isSome) + 1)

/-- A candidate does not stop a search just when its rule does not match, or matches without
effect. -/
theorem stop?_eq_none_iff {origin : Position} {rule : Rule} :
    stop? game board (origin, rule) = none ↔
      ∀ bindings, rule.match? board origin = some bindings →
        rule.commands.cancel = false ∧ (rule.rewrite game board origin bindings).1 = board := by
  rw [stop?]
  cases rule.match? board origin with
  | none => simp
  | some bindings =>
    cases rule.commands.cancel with
    | true => simp
    | false =>
      by_cases hcopy : (rule.rewrite game board origin bindings).1 = board <;> simp [hcopy]

theorem stop?_eq_fire {candidate : Position × Rule} {after : Board} {firing : Firing}
    (h : stop? game board candidate = some (.fire after firing)) :
    ∃ bindings, candidate.2.match? board candidate.1 = some bindings ∧
      candidate.2.rewrite game board candidate.1 bindings = (after, firing.cells) ∧
      after ≠ board ∧ firing.line = candidate.2.line ∧ firing.direction = candidate.2.direction ∧
      firing.origin = candidate.1 := by
  rw [stop?] at h
  cases hmatch : candidate.2.match? board candidate.1 with
  | none =>
    rw [hmatch] at h
    cases h
  | some bindings =>
    rw [hmatch] at h
    dsimp only at h
    split at h
    · cases h
    · split at h
      · cases h
      · next hcopy =>
        cases h
        exact ⟨bindings, rfl, rfl, hcopy, rfl, rfl, rfl⟩

theorem replay?_of_stop? (hgame : game.IsLayered) (hboard : board.Fits game)
    {candidate : Position × Rule} {after : Board} {firing : Firing}
    (h : stop? game board candidate = some (.fire after firing)) :
    board.replay? game (Firing.placed [firing]) = some after := by
  obtain ⟨bindings, -, hrewrite, -⟩ := stop?_eq_fire h
  have hreplay := candidate.2.replay?_rewrite hgame hboard candidate.1 bindings
  rw [hrewrite] at hreplay
  rw [Firing.placed, List.flatMap_singleton]
  exact hreplay

/-! ## The candidates that are tried -/

theorem tried_cons_of_none {candidate : Position × Rule} {candidates : List (Position × Rule)}
    (h : stop? game board candidate = none) :
    tried game board (candidate :: candidates) = candidate :: tried game board candidates := by
  rw [tried, List.findIdx_cons, h]
  rfl

theorem tried_cons_of_some {candidate : Position × Rule} {candidates : List (Position × Rule)}
    {stop : Stop} (h : stop? game board candidate = some stop) :
    tried game board (candidate :: candidates) = [candidate] := by
  rw [tried, List.findIdx_cons, h]
  rfl

theorem mem_of_mem_tried {candidate : Position × Rule} {candidates : List (Position × Rule)}
    (h : candidate ∈ tried game board candidates) : candidate ∈ candidates :=
  List.mem_of_mem_take h

theorem tried_eq_self {candidates : List (Position × Rule)}
    (h : candidates.findSome? (stop? game board) = none) :
    tried game board candidates = candidates := by
  induction candidates with
  | nil => rfl
  | cons first rest ih =>
    rw [List.findSome?_eq_none_iff] at h
    rw [tried_cons_of_none (h first List.mem_cons_self), ih]
    exact List.findSome?_eq_none_iff.mpr fun other hother ↦
      h other (List.mem_cons_of_mem first hother)

/-! ## Searching -/

/-- One candidate of a search: it stops the search, or the search goes on with the board as it
was. -/
theorem search_cons (hgame : game.IsLayered) (hboard : board.Fits game)
    (candidate : Position × Rule) (candidates : List (Position × Rule)) (winRequested : Bool) :
    search game (candidate :: candidates) board winRequested =
      match stop? game board candidate with
      | none => search game candidates board (winRequested || ordersWin board candidate)
      | some .cancel => ⟨board, winRequested, .cancelled⟩
      | some (.fire after firing) =>
        ⟨after, winRequested || ordersWin board candidate, .fired firing⟩ := by
  obtain ⟨origin, rule⟩ := candidate
  cases hmatch : rule.match? board origin with
  | none => simp [search, stop?, ordersWin, hmatch]
  | some bindings =>
    cases hcancel : rule.commands.cancel with
    | true => simp [search, stop?, hmatch, hcancel]
    | false =>
      have hiff := Rule.rewrite_eq_self_iff hgame hboard hmatch
      cases hrewrite : rule.rewrite game board origin bindings with
      | mk copy cells =>
        rw [hrewrite] at hiff
        cases cells with
        | nil =>
          -- a rewriting that records nothing has left the board as it was
          obtain rfl : copy = board := hiff.mpr rfl
          simp [search, stop?, ordersWin, hmatch, hcancel, hrewrite]
        | cons cell cells =>
          have hcopy : copy ≠ board := fun heq ↦ List.cons_ne_nil cell cells (hiff.mp heq)
          simp [search, stop?, ordersWin, hmatch, hcancel, hrewrite, hcopy]

/-- **A search ends at the first candidate that stops it.** -/
theorem search_spec (hgame : game.IsLayered) (hboard : board.Fits game)
    (candidates : List (Position × Rule)) (winRequested : Bool) :
    match candidates.findSome? (stop? game board) with
    | none => search game candidates board winRequested =
        ⟨board, winRequested || (tried game board candidates).any (ordersWin board), .settled⟩
    | some .cancel => (search game candidates board winRequested).board = board ∧
        (search game candidates board winRequested).ended = .cancelled
    | some (.fire after firing) => search game candidates board winRequested =
        ⟨after, winRequested || (tried game board candidates).any (ordersWin board),
          .fired firing⟩ := by
  induction candidates generalizing winRequested with
  | nil => simp [search, tried]
  | cons first rest ih =>
    rw [search_cons hgame hboard, List.findSome?_cons]
    cases hstop : stop? game board first with
    | none =>
      rw [tried_cons_of_none hstop, List.any_cons, ← Bool.or_assoc]
      exact ih _
    | some stop =>
      rw [tried_cons_of_some hstop, List.any_cons, List.any_nil, Bool.or_false]
      cases stop with
      | cancel => exact ⟨rfl, rfl⟩
      | fire after firing => rfl

section

variable {candidates : List (Position × Rule)} {winRequested winRequested' : Bool} {after : Board}
  {firing : Firing}

theorem search_eq_fired (hgame : game.IsLayered) (hboard : board.Fits game)
    (h : search game candidates board winRequested = ⟨after, winRequested', .fired firing⟩) :
    candidates.findSome? (stop? game board) = some (.fire after firing) ∧
      winRequested' = (winRequested || (tried game board candidates).any (ordersWin board)) := by
  have hspec := search_spec hgame hboard candidates winRequested
  rw [h] at hspec
  split at hspec
  · cases hspec
  · cases hspec.2
  · next hstop =>
    cases hspec
    exact ⟨hstop, rfl⟩

theorem search_eq_cancelled (hgame : game.IsLayered) (hboard : board.Fits game)
    (h : search game candidates board winRequested = ⟨after, winRequested', .cancelled⟩) :
    candidates.findSome? (stop? game board) = some .cancel ∧ after = board := by
  have hspec := search_spec hgame hboard candidates winRequested
  rw [h] at hspec
  split at hspec
  · cases hspec
  · next hstop => exact ⟨hstop, hspec.1⟩
  · cases hspec

theorem search_eq_settled (hgame : game.IsLayered) (hboard : board.Fits game)
    (h : search game candidates board winRequested = ⟨after, winRequested', .settled⟩) :
    candidates.findSome? (stop? game board) = none ∧ after = board ∧
      winRequested' = (winRequested || (tried game board candidates).any (ordersWin board)) := by
  have hspec := search_spec hgame hboard candidates winRequested
  rw [h] at hspec
  split at hspec
  · next hstop =>
    cases hspec
    exact ⟨hstop, rfl, rfl⟩
  · cases hspec.2
  · cases hspec

end

/-! ## The candidates of a group -/

namespace RuleGroup

@[simp] theorem mem_candidates {group : RuleGroup} {origin : Position} {rule : Rule} :
    (origin, rule) ∈ group.candidates board ↔
      board.contains origin = true ∧ rule ∈ group.rules := by
  rw [candidates, List.mem_flatMap]
  constructor
  · rintro ⟨p, hp, h⟩
    obtain ⟨other, hother, heq⟩ := List.mem_map.mp h
    obtain ⟨rfl, rfl⟩ := Prod.mk.inj heq
    exact ⟨Board.mem_positions.mp hp, hother⟩
  · rintro ⟨horigin, hrule⟩
    exact ⟨origin, Board.mem_positions.mpr horigin, List.mem_map_of_mem hrule⟩

theorem candidates_sameShape (group : RuleGroup) {board' : Board} (h : board.SameShape board') :
    group.candidates board' = group.candidates board := by
  rw [candidates, candidates, Board.positions, Board.positions, h.width, h.height]

/-- After a firing the next search has the same candidates, on a board that fits. -/
theorem fits_of_fire (hgame : game.IsLayered) (group : RuleGroup) (hboard : board.Fits game)
    {after : Board} {firing : Firing}
    (h : (group.candidates board).findSome? (stop? game board) = some (.fire after firing)) :
    after.Fits game ∧ group.candidates after = group.candidates board := by
  obtain ⟨candidate, -, hcandidate⟩ := List.exists_of_findSome?_eq_some h
  have hreplay := replay?_of_stop? hgame hboard hcandidate
  exact ⟨hboard.replay? hreplay, group.candidates_sameShape (Board.replay?_sameShape hreplay)⟩

end RuleGroup

end TilePuzzle
