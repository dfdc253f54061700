import TilePuzzle.Text
import TilePuzzle.Grid
import TilePuzzle.Log
import TilePuzzle.ObjectSet
import TilePuzzle.Board
import TilePuzzle.Board.Digest
import TilePuzzle.Color
import TilePuzzle.Rule
import TilePuzzle.Change
import TilePuzzle.WinCondition
import TilePuzzle.Game
import TilePuzzle.Change.Revert
import TilePuzzle.Rule.Match
import TilePuzzle.Rule.Rewrite
import TilePuzzle.Turn
import TilePuzzle.Document.Section
import TilePuzzle.Document.Error
import TilePuzzle.Document.Line
import TilePuzzle.Document.Chunk
import TilePuzzle.Document.LineDeclaration
import TilePuzzle.Document.ObjectDeclaration
import TilePuzzle.Document.LegendDefinition
import TilePuzzle.Document.Drawing
import TilePuzzle.Document.RuleDeclaration
import TilePuzzle.Document.RuleDeclaration.Token
import TilePuzzle.Document.RuleDeclaration.Reader
import TilePuzzle.Document
import TilePuzzle.Definition.Error
import TilePuzzle.Definition.Appearance
import TilePuzzle.Definition.SymbolTable
import TilePuzzle.Definition.LayerAssignment
import TilePuzzle.Definition.Expansion
import TilePuzzle.Definition.Board
import TilePuzzle.Definition
import TilePuzzle.UndoStack
import TilePuzzle.Session
import TilePuzzle.Session.View
import TilePuzzle.Proofs.Cell
import TilePuzzle.Proofs.Board
import TilePuzzle.Proofs.Fit
import TilePuzzle.Proofs.Transfer
import TilePuzzle.Proofs.Replay
import TilePuzzle.Proofs.Revert
import TilePuzzle.Proofs.Rewrite
import TilePuzzle.Proofs.Row
import TilePuzzle.Proofs.Turn
import TilePuzzle.Proofs.Search
import TilePuzzle.Proofs.Outcome
import TilePuzzle.Proofs.Definition.Names
import TilePuzzle.Proofs.Definition.Rules
import TilePuzzle.Proofs.Definition.Boards
import TilePuzzle.Proofs.Definition.Game
import TilePuzzle.Proofs.StrictTurn
import TilePuzzle.Proofs.Definition.Turn
import TilePuzzle.Proofs.Strategy
import TilePuzzle.Proofs.Course
import TilePuzzle.Proofs.Account
import TilePuzzle.Proofs.Settled
import TilePuzzle.Proofs.Bound
import TilePuzzle.Proofs.Guard
import TilePuzzle.Proofs.Balance
import TilePuzzle.Proofs.Repetition
import TilePuzzle.Proofs.Definition.Plain
import TilePuzzle.Proofs.Layer
import TilePuzzle.Proofs.Inert
import TilePuzzle.Proofs.Rotation.Board
import TilePuzzle.Proofs.Rotation.Rule
import TilePuzzle.Proofs.Rotation.Expansion
import TilePuzzle.Proofs.UndoStack
import TilePuzzle.Proofs.Session.Requests
import TilePuzzle.Proofs.Session.Consistent
import TilePuzzle.Proofs.Session.Copying
import TilePuzzle.Proofs.Session.Mirror
import TilePuzzle.Proofs.Session.Flat
import TilePuzzle.Proofs.Session.Refusal
import TilePuzzle.Proofs.Session.Reopening
import TilePuzzle.Proofs.Session.Movement
import TilePuzzle.Proofs.Definition.Sprite
import TilePuzzle.Proofs.Loading.RuleLine
import TilePuzzle.Proofs.Loading.Places
import TilePuzzle.Proofs.Loading.Color
import TilePuzzle.Proofs.Loading.Result
import TilePuzzle.Proofs.Loading.Crash
import TilePuzzle.Proofs.Definition.Pairing
import TilePuzzle.Proofs.Match
import TilePuzzle.Proofs.Loading.Numbering
import TilePuzzle.Proofs.Definition.Idle
import TilePuzzle.Proofs.Survival
import TilePuzzle.Proofs.Unwinding
import TilePuzzle.Proofs.Digest
import TilePuzzle.Proofs.Definition.Winning
import TilePuzzle.Proofs.RuleText.Layout
import TilePuzzle.Proofs.RuleText.Cell
import TilePuzzle.Proofs.RuleText.Rule
import TilePuzzle.Proofs.RuleText.Plain
import TilePuzzle.Proofs.Document.Comments
import TilePuzzle.Proofs.Document.Sections
import TilePuzzle.Proofs.Document.Banners
import TilePuzzle.Proofs.Document.LevelRows
import TilePuzzle.Proofs.Definition.LevelFaults
import TilePuzzle.Proofs.Definition.Namespace
import TilePuzzle.Proofs.Definition.Legend
import TilePuzzle.Proofs.Definition.Layers
import TilePuzzle.Proofs.Definition.Drawings
import TilePuzzle.Proofs.Blank
import TilePuzzle.Proofs.Document.LegendLines
import TilePuzzle.Proofs.Document.LevelRuns
import TilePuzzle.Proofs.Document.Declarations
import TilePuzzle.Proofs.Agreement
import TilePuzzle.Proofs.Definition.Spelling
import TilePuzzle.Proofs.Session.View
import TilePuzzle.Proofs.ObjectSet
import TilePuzzle.Proofs.Addressing
import TilePuzzle.Proofs.Color
