import TilePuzzle.Text

/-!
# Messages and failures

Reading a document, building a game and playing it may leave messages for the host. A `Log` keeps
them in the order in which they were written.

## Failing and crashing

Input that breaks a rule of the format is *refused* with a cause. One defect goes further: reading a
colour may cut a character in two. No cause describes that; the computation just stops, and whoever
started it learns only that it *crashed*.

## Both together

A computation that may fail runs in `Logged ε`: its messages stay even when it ends in an error.
-/

namespace TilePuzzle

/-! ## Records -/

/-- How grave a message is. -/
inductive Severity
  | info
  | warning
  | error
deriving DecidableEq, Inhabited

namespace Severity

/-- Every severity, the mildest first. -/
def all : List Severity := [info, warning, error]

/-- The word that denotes the severity. -/
def word : Severity → String
  | info => "info"
  | warning => "warning"
  | error => "error"

/-- Reads a severity word, in any ASCII case. -/
def ofWord? : String → Option Severity := Text.readWord? all word

end Severity

/-- One message. -/
structure Note where
  severity : Severity
  message : String
deriving DecidableEq, Inhabited

/-- The messages written so far, the oldest first. -/
structure Log where
  notes : Array Note
deriving DecidableEq, Inhabited

namespace Log

/-- No message. -/
def empty : Log := ⟨#[]⟩

/-- Writes a message of a given severity. -/
def write (log : Log) (severity : Severity) (message : String) : Log :=
  ⟨log.notes.push ⟨severity, message⟩⟩

/-- Writes an information. -/
def info (log : Log) (message : String) : Log := log.write .info message

/-- Writes a warning. -/
def warning (log : Log) (message : String) : Log := log.write .warning message

/-- Writes an error. -/
def error (log : Log) (message : String) : Log := log.write .error message

/-- The messages of one severity, the oldest first. -/
def messagesOf (log : Log) (severity : Severity) : List String :=
  (log.notes.toList.filter fun note ↦ note.severity == severity).map Note.message

/-- Whether some message of a severity contains `needle`. -/
def mentions (log : Log) (severity : Severity) (needle : String) : Bool :=
  (log.messagesOf severity).any fun message ↦ Text.occursIn needle.toList message.toList

end Log

/-! ## Failures -/

/-- A defect that stops a computation without a verdict on its input. -/
inductive Crash
  /-- A part of a text was asked for that begins or ends inside a character. -/
  | splitCharacter
deriving DecidableEq, Inhabited

/-- How a computation that refuses bad input with an `ε` may fail. -/
inductive Failure (ε : Type)
  | refused (cause : ε)
  | crashed (crash : Crash)
deriving DecidableEq

namespace Failure

/-- The same failure with its cause seen as one of a wider kind. -/
def map {ε δ : Type} (f : ε → δ) : Failure ε → Failure δ
  | refused cause => refused (f cause)
  | crashed crash => crashed crash

end Failure

/-! ## Computations that write messages -/

/-- A computation that writes messages and may fail with an `ε`. -/
abbrev Logged (ε : Type) := ExceptT ε (StateM Log)

namespace Logged

/-- Writes an information. -/
def info {ε : Type} (message : String) : Logged ε Unit :=
  modify fun log ↦ log.info message

/-- Writes a warning. -/
def warning {ε : Type} (message : String) : Logged ε Unit :=
  modify fun log ↦ log.warning message

/-- A computation that writes nothing. -/
def lift {ε α : Type} (result : Except ε α) : Logged ε α := fun log ↦ (result, log)

/-- A computation that writes nothing and refuses bad input. -/
def refuse {ε α : Type} (result : Except ε α) : Logged (Failure ε) α :=
  lift (result.mapError .refused)

/-- The same computation with its error seen as one of a wider kind. -/
def mapError {ε δ α : Type} (f : ε → δ) (computation : Logged ε α) : Logged δ α := fun log ↦
  match computation log with
  | (result, log) => (result.mapError f, log)

/-- Runs a computation: its result, and the log it was given with its messages added. -/
def runOn {ε α : Type} (computation : Logged ε α) (log : Log) : Except ε α × Log :=
  computation log

end Logged

end TilePuzzle
