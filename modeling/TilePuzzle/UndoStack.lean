import TilePuzzle.Change

/-!
# The undo stack

The turns that can be undone, the latest first. A turn is kept if a rule fired or if it won the
level, for then undoing it at least reopens the level. With a limit, keeping one turn more forgets
the oldest.
-/

namespace TilePuzzle

/-- The turns that can be undone. -/
structure UndoStack where
  /-- How many turns are kept at most; without a limit all of them. -/
  limit : Option Nat
  /-- The turns, the latest first. -/
  records : List TurnRecord
deriving DecidableEq, Inhabited

namespace UndoStack

/-- A stack without turns. -/
def empty (limit : Option Nat) : UndoStack := ⟨limit, []⟩

/-- The number of turns that can be undone. -/
def depth (stack : UndoStack) : Nat := stack.records.length

/-- Whether no turn can be undone. -/
def isEmpty (stack : UndoStack) : Bool := stack.records.isEmpty

/-- The turns that stay when one more is kept. -/
def retained (stack : UndoStack) : List TurnRecord :=
  match stack.limit with
  | none => stack.records
  | some limit => stack.records.take (limit - 1)

/-- Keeps a turn, unless nothing came of it or nothing may be kept. -/
def push (stack : UndoStack) (record : TurnRecord) (won : Bool) : UndoStack :=
  if (record.isEmpty && !won) || stack.limit == some 0 then stack
  else { stack with records := record :: stack.retained }

/-- The latest turn, and the stack without it. -/
def pop? (stack : UndoStack) : Option (TurnRecord × UndoStack) :=
  match stack.records with
  | [] => none
  | record :: records => some (record, { stack with records })

/-- Forgets every turn. -/
def clear (stack : UndoStack) : UndoStack := { stack with records := [] }

end UndoStack

end TilePuzzle
