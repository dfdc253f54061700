import Mathlib.Data.List.Induction
import TilePuzzle.UndoStack

/-!
# Undo stacks and their limit

A stack with a limit is compared with a stack without one that is operated in the same way. At any
time it holds the latest turns of the other stack, so whatever is taken off it is taken off the
other stack too (`IsTopOf`). Keeping a turn is the only operation that forgets another one, at the
bottom, and only on a stack that is full.

## Depths

A turn on the stack is found by its *depth*, the number of newer turns on top of it. Equal turns may
be kept several times, so it is the depth and not the turn itself that is followed: an operation
leaves a turn where it is, lets it sink or rise by one, or removes it (`getElem?_operate`).
-/

namespace TilePuzzle

/-- Something came of a turn: a rule fired, or the level was won. -/
def TurnRecord.Counts (record : TurnRecord) (won : Bool) : Prop :=
  record.isEmpty = false ∨ won = true

theorem TurnRecord.counts_iff {record : TurnRecord} {won : Bool} :
    record.Counts won ↔ (record.isEmpty && !won) = false := by
  rw [Counts, Bool.and_eq_false_iff, Bool.not_eq_false']

namespace UndoStack

variable {stack full rest : UndoStack} {record held : TurnRecord} {won : Bool} {limit depth : Nat}

/-! ## Keeping a turn -/

theorem push_of_not_counts (h : ¬record.Counts won) : stack.push record won = stack := by
  rw [TurnRecord.counts_iff, Bool.not_eq_false] at h
  rw [push, h]
  rfl

theorem push_of_isEmpty (stack : UndoStack) (h : record.isEmpty = true) :
    stack.push record false = stack := by
  rw [push, h]
  rfl

theorem push_of_limit_zero (h : stack.limit = some 0) : stack.push record won = stack := by
  rw [push, h]
  exact if_pos (Bool.or_true _)

theorem records_push (h : record.Counts won) (hlimit : stack.limit ≠ some 0) :
    (stack.push record won).records = record :: stack.retained := by
  rw [push, TurnRecord.counts_iff.mp h, Bool.false_or, if_neg]
  intro hzero
  exact hlimit (beq_iff_eq.mp hzero)

@[simp] theorem limit_push (stack : UndoStack) (record : TurnRecord) (won : Bool) :
    (stack.push record won).limit = stack.limit := by
  rw [push]
  split <;> rfl

theorem depth_push (hlimit : stack.limit = some limit) (hpos : 0 < limit)
    (hdepth : stack.depth ≤ limit) (h : record.Counts won) :
    (stack.push record won).depth = min limit (stack.depth + 1) := by
  have hzero : stack.limit ≠ some 0 := by
    rw [hlimit]
    intro hzero
    exact Nat.ne_of_gt hpos (Option.some.inj hzero)
  rw [depth] at hdepth
  rw [depth, records_push h hzero, retained, hlimit, List.length_cons, List.length_take, depth]
  omega

theorem depth_push_le (hlimit : stack.limit = some limit) (hdepth : stack.depth ≤ limit)
    (record : TurnRecord) (won : Bool) : (stack.push record won).depth ≤ limit := by
  rcases Nat.eq_zero_or_pos limit with rfl | hpos
  · rwa [push_of_limit_zero hlimit]
  · by_cases h : record.Counts won
    · rw [depth_push hlimit hpos hdepth h]
      exact Nat.min_le_left ..
    · rwa [push_of_not_counts h]

/-! ## Taking a turn off -/

theorem pop?_eq_some (h : stack.pop? = some (record, rest)) :
    rest.limit = stack.limit ∧ stack.records = record :: rest.records := by
  rw [pop?] at h
  split at h
  · cases h
  · next hrecords =>
    cases h
    exact ⟨rfl, hrecords⟩

theorem depth_of_pop? (h : stack.pop? = some (record, rest)) : stack.depth = rest.depth + 1 := by
  rw [depth, (pop?_eq_some h).2, List.length_cons, depth]

theorem pop?_of_records {records : List TurnRecord} (h : stack.records = record :: records) :
    stack.pop? = some (record, { stack with records }) := by
  rw [pop?, h]

theorem pop?_push (h : record.Counts won) (hlimit : stack.limit ≠ some 0) :
    (stack.push record won).pop? = some (record, { stack with records := stack.retained }) := by
  rw [pop?_of_records (records_push h hlimit), push]
  split <;> rfl

/-! ## Operations -/

/-- What can be done with an undo stack. -/
inductive Operation
  | push (record : TurnRecord) (won : Bool)
  | pop
  | clear

/-- The stack after an operation; taking a turn off an empty stack does nothing. -/
def operate (stack : UndoStack) : Operation → UndoStack
  | .push record won => stack.push record won
  | .pop => (stack.pop?.map Prod.snd).getD stack
  | .clear => stack.clear

/-- The stack after some operations. -/
def after (stack : UndoStack) (operations : List Operation) : UndoStack :=
  operations.foldl operate stack

theorem operate_pop_of_nil (h : stack.records = []) : stack.operate .pop = stack := by
  rw [operate, pop?, h]
  rfl

@[simp] theorem records_operate_pop (stack : UndoStack) :
    (stack.operate .pop).records = stack.records.tail := by
  rcases h : stack.records with _ | ⟨record, records⟩
  · rw [operate_pop_of_nil h, h]
    rfl
  · rw [operate, pop?_of_records h]
    rfl

@[simp] theorem limit_operate (stack : UndoStack) (operation : Operation) :
    (stack.operate operation).limit = stack.limit := by
  cases operation with
  | push record won => exact limit_push ..
  | pop =>
    rw [operate, pop?]
    split <;> rfl
  | clear => rfl

@[simp] theorem limit_after (stack : UndoStack) (operations : List Operation) :
    (stack.after operations).limit = stack.limit := by
  refine List.foldlRecOn (motive := fun other ↦ other.limit = stack.limit) operations operate rfl ?_
  intro other hother operation _
  exact (limit_operate other operation).trans hother

theorem after_append (stack : UndoStack) (front back : List Operation) :
    stack.after (front ++ back) = (stack.after front).after back := List.foldl_append

/-! ## The limit -/

/-- The stack holds no more turns than it may. -/
def IsWithinLimit (stack : UndoStack) : Prop :=
  ∀ limit, stack.limit = some limit → stack.depth ≤ limit

theorem isWithinLimit_empty (limit : Option Nat) : (empty limit).IsWithinLimit := by
  intro n _
  exact Nat.zero_le n

theorem IsWithinLimit.operate (h : stack.IsWithinLimit) (operation : Operation) :
    (stack.operate operation).IsWithinLimit := by
  intro limit hlimit
  rw [limit_operate] at hlimit
  have hdepth := h limit hlimit
  cases operation with
  | push record won => exact depth_push_le hlimit hdepth record won
  | pop =>
    rw [depth, records_operate_pop, List.length_tail]
    exact Nat.le_trans (Nat.sub_le ..) hdepth
  | clear => exact Nat.zero_le limit

theorem IsWithinLimit.after (h : stack.IsWithinLimit) (operations : List Operation) :
    (stack.after operations).IsWithinLimit := by
  refine List.foldlRecOn (motive := IsWithinLimit) operations _ h ?_
  intro other hother operation _
  exact hother.operate operation

/-! ## The latest turns of a stack without a limit -/

/-- A stack holds the latest turns of a stack without a limit. -/
structure IsTopOf (stack full : UndoStack) : Prop where
  limit_eq : full.limit = none
  isWithinLimit : stack.IsWithinLimit
  prefix_records : stack.records <+: full.records

theorem isTopOf_empty (limit : Option Nat) : (empty limit).IsTopOf (empty none) where
  limit_eq := rfl
  isWithinLimit := isWithinLimit_empty limit
  prefix_records := List.nil_prefix

theorem records_eq_nil_of_limit_zero (h : stack.IsWithinLimit) (hzero : stack.limit = some 0) :
    stack.records = [] :=
  List.length_eq_zero_iff.mp (Nat.le_zero.mp (h 0 hzero))

/-- What stays of the records when one more is kept is the latest of them. -/
theorem retained_prefix_records (stack : UndoStack) : stack.retained <+: stack.records := by
  rw [retained]
  split
  · exact List.prefix_refl _
  · exact List.take_prefix ..

theorem tail_prefix_tail {α : Type} {xs ys : List α} (h : xs <+: ys) : xs.tail <+: ys.tail := by
  obtain ⟨back, rfl⟩ := h
  rcases xs with _ | ⟨x, xs⟩
  · exact List.nil_prefix
  · exact ⟨back, rfl⟩

theorem IsTopOf.prefix_push_records (h : stack.IsTopOf full) (record : TurnRecord) (won : Bool) :
    (stack.push record won).records <+: (full.push record won).records := by
  by_cases hcounts : record.Counts won
  · by_cases hzero : stack.limit = some 0
    · -- only the other stack keeps the turn, and this one holds nothing
      rw [push_of_limit_zero hzero, records_eq_nil_of_limit_zero h.isWithinLimit hzero]
      exact List.nil_prefix
    · have hfull : full.limit ≠ some 0 := by
        rw [h.limit_eq]
        exact nofun
      have hretained : full.retained = full.records := by rw [retained, h.limit_eq]
      rw [records_push hcounts hzero, records_push hcounts hfull, hretained,
        List.prefix_cons_inj]
      exact (retained_prefix_records stack).trans h.prefix_records
  · rw [push_of_not_counts hcounts, push_of_not_counts hcounts]
    exact h.prefix_records

/-- **One operation** on both stacks keeps the one on top of the other. -/
theorem IsTopOf.operate (h : stack.IsTopOf full) (operation : Operation) :
    (stack.operate operation).IsTopOf (full.operate operation) where
  limit_eq := (limit_operate full operation).trans h.limit_eq
  isWithinLimit := h.isWithinLimit.operate operation
  prefix_records := by
    cases operation with
    | push record won => exact h.prefix_push_records record won
    | pop =>
      rw [records_operate_pop, records_operate_pop]
      exact tail_prefix_tail h.prefix_records
    | clear => exact List.prefix_refl _

theorem IsTopOf.after (h : stack.IsTopOf full) (operations : List Operation) :
    (stack.after operations).IsTopOf (full.after operations) := by
  induction operations generalizing stack full with
  | nil => exact h
  | cons operation operations ih => exact ih (h.operate operation)

/-- What is taken off a stack is taken off the stack without a limit. -/
theorem IsTopOf.exists_pop? (h : stack.IsTopOf full)
    (hpop : stack.pop? = some (record, rest)) : ∃ rest', full.pop? = some (record, rest') := by
  obtain ⟨older, holder⟩ := h.prefix_records
  rw [(pop?_eq_some hpop).2, List.cons_append] at holder
  exact ⟨_, pop?_of_records holder.symm⟩

/-! ## How a turn leaves the stack -/

/-- The depth of a turn after an operation that leaves it on the stack. -/
def Operation.sink (depth : Nat) : Operation → Nat
  | .push record won => if record.isEmpty && !won then depth else depth + 1
  | .pop => depth - 1
  | .clear => depth

/-- The operations by which a turn in a given depth leaves the stack. -/
inductive Operation.Removes (limit : Option Nat) : Operation → Nat → Prop
  | clear (depth : Nat) : Removes limit .clear depth
  /-- The turn is the latest, and it is taken off. -/
  | pop : Removes limit .pop 0
  /-- With the turn that is kept, there are as many newer ones as the stack may hold. -/
  | push {record : TurnRecord} {won : Bool} {depth : Nat} (hcounts : record.Counts won)
      (hlimit : limit = some (depth + 1)) : Removes limit (.push record won) depth

theorem Operation.sink_push (h : record.Counts won) :
    (Operation.push record won).sink depth = depth + 1 := by
  rw [sink, TurnRecord.counts_iff.mp h]
  rfl

theorem Operation.sink_push_of_not_counts (h : ¬record.Counts won) :
    (Operation.push record won).sink depth = depth := by
  rw [TurnRecord.counts_iff, Bool.not_eq_false] at h
  rw [sink, h]
  rfl

/-- A turn sinks under one that is kept, unless the stack is full and the turn is the oldest. -/
theorem getElem?_records_push (hstack : stack.IsWithinLimit)
    (hheld : stack.records[depth]? = some held) (hcounts : record.Counts won)
    (hlimit : stack.limit ≠ some (depth + 1)) :
    (stack.push record won).records[depth + 1]? = some held := by
  have hdepth : depth < stack.depth := (List.getElem?_eq_some_iff.mp hheld).1
  have hzero : stack.limit ≠ some 0 := by
    intro hzero
    exact Nat.not_lt_zero depth (Nat.lt_of_lt_of_le hdepth (hstack 0 hzero))
  rw [records_push hcounts hzero, List.getElem?_cons_succ, retained]
  split
  · exact hheld
  · next n hn =>
    -- the place below may be forgotten, but it is not the last one
    have hle := hstack n hn
    have hne : depth + 1 ≠ n := by
      rintro rfl
      exact hlimit hn
    rw [List.getElem?_take_of_lt (by omega)]
    exact hheld

/-- **One operation** leaves a turn on the stack unless it is one that removes it. -/
theorem getElem?_operate (hstack : stack.IsWithinLimit)
    (hheld : stack.records[depth]? = some held) {operation : Operation}
    (hremains : ¬operation.Removes stack.limit depth) :
    (stack.operate operation).records[operation.sink depth]? = some held := by
  cases operation with
  | push record won =>
    rw [operate]
    by_cases hcounts : record.Counts won
    · rw [Operation.sink_push hcounts]
      apply getElem?_records_push hstack hheld hcounts
      intro hlimit
      exact hremains (.push hcounts hlimit)
    · rwa [Operation.sink_push_of_not_counts hcounts, push_of_not_counts hcounts]
  | pop =>
    rcases Nat.eq_zero_or_pos depth with rfl | hpos
    · exact absurd .pop hremains
    · rw [records_operate_pop, List.getElem?_tail, Operation.sink, Nat.sub_add_cancel hpos]
      exact hheld
  | clear => exact absurd (.clear depth) hremains

/-- A turn stays on the stack, under the newer ones, until an operation removes it. -/
theorem getElem?_after_or_removes (hstack : stack.IsWithinLimit)
    (hheld : stack.records[depth]? = some held) (operations : List Operation) :
    (stack.after operations).records[operations.foldl Operation.sink depth]? = some held ∨
      ∃ front operation back, operations = front ++ operation :: back ∧
        (stack.after front).records[front.foldl Operation.sink depth]? = some held ∧
        operation.Removes stack.limit (front.foldl Operation.sink depth) := by
  induction operations using List.reverseRecOn with
  | nil => exact .inl hheld
  | append_singleton operations operation ih =>
    -- before the last operation, the turn is there or was removed already
    rcases ih with hpresent | ⟨front, remover, back, rfl, hfront, hremoves⟩
    · by_cases hremoves : operation.Removes stack.limit (operations.foldl Operation.sink depth)
      · exact .inr ⟨operations, operation, [], rfl, hpresent, hremoves⟩
      · left
        rw [after_append, List.foldl_append]
        apply getElem?_operate (hstack.after operations) hpresent
        rwa [limit_after]
    · right
      exact ⟨front, remover, back ++ [operation], List.append_assoc .., hfront, hremoves⟩

/-- **A limit keeps the latest turns.** After any operations, a stack with a limit holds the latest
turns of a stack without one, and no more than it may; a turn that is taken off it is taken off the
other one; a turn that counts makes it one deeper as long as it is not full; and whatever is done
later, a turn that it holds stays under the newer ones until the stack is cleared, the turn is taken
off as the latest one, or as many newer ones as the stack may hold are on top of it. -/
theorem limit_keeps_latest (limit : Option Nat) (operations : List Operation) :
    ((empty limit).after operations).records <+: ((empty none).after operations).records ∧
    (∀ n, limit = some n → ((empty limit).after operations).depth ≤ n) ∧
    (∀ record rest, ((empty limit).after operations).pop? = some (record, rest) →
      ∃ rest', ((empty none).after operations).pop? = some (record, rest')) ∧
    (∀ n record won, limit = some n → 0 < n → record.Counts won →
      (((empty limit).after operations).push record won).depth =
        min n (((empty limit).after operations).depth + 1)) ∧
    ∀ depth held later, ((empty limit).after operations).records[depth]? = some held →
      ((empty limit).after (operations ++ later)).records[later.foldl Operation.sink depth]? =
          some held ∨
        ∃ front operation back, later = front ++ operation :: back ∧
          ((empty limit).after (operations ++ front)).records[front.foldl Operation.sink depth]? =
            some held ∧
          operation.Removes limit (front.foldl Operation.sink depth) := by
  have htop := (isTopOf_empty limit).after operations
  have hlimit : ((empty limit).after operations).limit = limit := limit_after ..
  have hdepth : ∀ n, limit = some n → ((empty limit).after operations).depth ≤ n := by
    intro n hn
    exact htop.isWithinLimit n (hlimit.trans hn)
  refine ⟨htop.prefix_records, hdepth, ?_, ?_, ?_⟩
  · intro record rest hpop
    exact htop.exists_pop? hpop
  · intro n record won hn hpos hcounts
    exact depth_push (hlimit.trans hn) hpos (hdepth n hn) hcounts
  · intro depth held later hheld
    have hstays := getElem?_after_or_removes htop.isWithinLimit hheld later
    simpa only [after_append, hlimit] using hstays

/-- A third turn makes a stack of two turns forget the first one. -/
example :
    ((empty (some 2)).after [.push ⟨some .action, []⟩ true, .push ⟨some (.toward .up), []⟩ true,
      .push ⟨none, []⟩ true]).records = [⟨none, []⟩, ⟨some (.toward .up), []⟩] := rfl

end UndoStack

end TilePuzzle
