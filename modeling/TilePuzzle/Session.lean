import TilePuzzle.Definition
import TilePuzzle.UndoStack
import TilePuzzle.Turn

/-!
# Sessions

A session holds at most one game and, if the game has levels, the level being played. The player's
requests are answered one at a time: when an answer is given, the turn is over, its changes are
recorded and it is known whether the level is won. A level that is won ignores movements until the
winning turn is undone, the level is restarted or another one is entered.

An answer comes with the session as it is afterwards and with the messages written meanwhile. A
request that fails leaves the session as it was.

## Limits and commands

A session runs within limits: how often a rule group may fire in one turn, and how many turns can be
undone. A player asks in words for a movement, takes the last turn back, or starts the level afresh.

## Representation

There is a level being played only within a game, and an undo stack and a latest record only for a
level being played. So a session without a level has nothing to undo and nothing to show, whatever
was played before.
-/

namespace TilePuzzle

/-! ## Limits -/

/-- The limits of a session. -/
structure Limits where
  /-- How often a rule group may fire in one turn before it is cut short. -/
  maxRewrites : Nat
  /-- How many turns can be undone; without a limit all of them. -/
  undoLimit : Option Nat
deriving DecidableEq

namespace Limits

/-- The limits that hold unless others are given. -/
def standard : Limits := ⟨10000, none⟩

instance : Inhabited Limits := ⟨standard⟩

/-- Limits the firings of a rule group, of which at least one is allowed. -/
def withMaxRewrites (limits : Limits) (maxRewrites : Nat) : Limits :=
  { limits with maxRewrites := max 1 maxRewrites }

/-- Limits the turns that can be undone. -/
def withUndoLimit (limits : Limits) (undoLimit : Nat) : Limits :=
  { limits with undoLimit := some undoLimit }

end Limits

/-! ## Commands -/

/-- A request of the player. -/
inductive Command
  | move (movement : Movement)
  | undo
  | restart
deriving DecidableEq, Inhabited

namespace Command

/-- Every command. -/
def all : List Command := Movement.all.map move ++ [undo, restart]

/-- The word that denotes the command. -/
def word : Command → String
  | move movement => movement.word
  | undo => "undo"
  | restart => "restart"

/-- Reads a command word, in any ASCII case. -/
def ofWord? : String → Option Command := Text.readWord? all word

/-- The movement that is asked for. -/
def movement? : Command → Option Movement
  | move movement => some movement
  | undo => none
  | restart => none

end Command

/-! ## Errors -/

/-- Why a request was refused. -/
inductive SessionError
  | malformed (error : SyntaxError)
  | undefinable (error : DefinitionError)
  | noGameLoaded
  | levelOutOfRange (index count : Nat)
  | unknownInput (text : String)
  | undoDisabled
  | restartDisabled
deriving DecidableEq, Inhabited

namespace SessionError

/-- The error in words. -/
def message : SessionError → String
  | malformed error => error.message
  | undefinable error => error.message
  | noGameLoaded => "no level is loaded"
  | levelOutOfRange index count => s!"level {index} does not exist (game has {count} levels)"
  | unknownInput text => s!"unknown input `{text}`"
  | undoDisabled => "undo is disabled for this game"
  | restartDisabled => "restart is disabled for this game"

end SessionError

/-! ## Sessions -/

/-- A level being played. -/
structure Play where
  /-- The place of the level in the game. -/
  index : Nat
  board : Board
  /-- Whether the level is won. -/
  won : Bool
  undoStack : UndoStack
  /-- What the latest turn did; nothing after an undo. -/
  subturns : List Subturn
deriving DecidableEq, Inhabited

/-- A game with the level being played, if it has levels. -/
structure Loaded where
  game : Game
  play : Option Play
deriving Inhabited

/-- A player's session. -/
structure Session where
  limits : Limits
  loaded : Option Loaded
deriving Inhabited

/-- Where a session stands. -/
inductive Phase
  /-- There is no game, or it has no levels. -/
  | uninitialized
  | levelLoaded (index : Nat)
  | levelWon (index : Nat)
deriving DecidableEq, Inhabited

namespace Session

/-- A session before any game is loaded. -/
def start (limits : Limits) : Session := ⟨limits, none⟩

/-- The game. -/
def game? (session : Session) : Option Game := session.loaded.map Loaded.game

/-- The level being played. -/
def play? (session : Session) : Option Play := session.loaded.bind Loaded.play

/-- The board of the level being played. -/
def board? (session : Session) : Option Board := session.play?.map Play.board

/-- Where the session stands. -/
def phase (session : Session) : Phase :=
  match session.play? with
  | none => .uninitialized
  | some play => if play.won then .levelWon play.index else .levelLoaded play.index

/-- The number of levels of the game. -/
def levelCount (session : Session) : Nat := (session.game?.map Game.levelCount).getD 0

/-- Whether the level being played is won. -/
def isComplete (session : Session) : Bool := session.play?.any Play.won

/-- The number of turns that can be undone. -/
def undoDepth (session : Session) : Nat :=
  (session.play?.map fun play ↦ play.undoStack.depth).getD 0

/-- What the latest turn did. -/
def subturns (session : Session) : List Subturn := (session.play?.map Play.subturns).getD []

/-- The same session with another state of the level being played. -/
def withPlay (session : Session) (game : Game) (play : Play) : Session :=
  { session with loaded := some ⟨game, some play⟩ }

end Session

/-! ## Answers -/

/-- The answer to a request: what came of it, the session afterwards, and the messages. -/
structure Reply (α : Type) where
  result : Except SessionError α
  session : Session
  log : Log

namespace Reply

/-- Grants a request. -/
def grant {α : Type} (session : Session) (value : α) (log : Log) : Reply α :=
  ⟨.ok value, session, log⟩

/-- Refuses a request: the session stays as it was. -/
def refuse {α : Type} (session : Session) (error : SessionError) (log : Log) : Reply α :=
  ⟨.error error, session, log⟩

/-- The same answer with another value. -/
def map {α β : Type} (f : α → β) (reply : Reply α) : Reply β :=
  ⟨reply.result.map f, reply.session, reply.log⟩

end Reply

/-! ## Starting levels -/

/-- Writes down what went wrong in a turn. -/
def Turn.report (turn : Turn) (limits : Limits) (log : Log) : Log :=
  let log := turn.saturated.foldl (fun log place ↦
    log.warning s!"rule group {place} stopped after {limits.maxRewrites} rewrites") log
  turn.violations.foldl (fun log violation ↦
    log.error s!"turn skipped an inconsistent delta: {violation.message}") log

/-- The level in a given place as it starts, possibly with a first turn without input. -/
def Play.start (limits : Limits) (game : Game) (index : Nat) (board : Board) (log : Log) :
    Play × Log :=
  if game.settings.rulesOnLevelStart then
    let turn := game.runTurn limits.maxRewrites none board
    (⟨index, turn.board, false, .empty limits.undoLimit, turn.record.subturns⟩,
      turn.report limits log)
  else
    (⟨index, board, false, .empty limits.undoLimit, []⟩, log)

namespace Session

/-- Enters a level of a game. -/
def enter (session : Session) (game : Game) (index : Nat) (log : Log) : Reply Unit :=
  match game.level? index with
  | none =>
    let error := SessionError.levelOutOfRange index game.levelCount
    .refuse session error (log.error s!"cannot load level: {error.message}")
  | some board =>
    match Play.start session.limits game index board log with
    | (play, log) => .grant (session.withPlay game play) () log

/-! ## Loading games -/

/-- Takes a game in place of the present one and starts its first level. -/
def openGame (session : Session) (game : Game) (log : Log) : Reply Unit :=
  let session := { session with loaded := some ⟨game, none⟩ }
  if game.levels.isEmpty then
    .grant session () (log.warning "game has no levels to play")
  else
    session.enter game 0 log

/-- Reads the game of a text. -/
def readGame (source : String) : Logged (Failure SessionError) Game := do
  let document ← Logged.mapError (fun error ↦ .refused (.malformed error)) (Document.read source)
  Logged.mapError (Failure.map .undefinable) (Game.ofDocument document)

/-- Loads the game of a text; if the text crashes, nothing else comes of it. -/
def load (session : Session) (source : String) : Except (Crash × Log) (Reply Unit) :=
  match (readGame source).runOn .empty with
  | (.ok game, log) => .ok (session.openGame game log)
  | (.error (.refused error), log) =>
    .ok (.refuse session error (log.error s!"failed to load game: {error.message}"))
  | (.error (.crashed crash), log) => .error (crash, log)

/-! ## Levels -/

/-- Starts a level of the game. -/
def loadLevel (session : Session) (index : Nat) : Reply Unit :=
  match session.loaded with
  | none =>
    .refuse session .noGameLoaded (Log.empty.error s!"cannot load level {index}: no game loaded")
  | some loaded => session.enter loaded.game index .empty

/-- Starts the level being played afresh. -/
def restart (session : Session) : Reply Unit :=
  match session.loaded with
  | some ⟨game, some play⟩ =>
    if game.settings.noRestart then
      .refuse session .restartDisabled (Log.empty.info "restart ignored: disabled by this game")
    else
      session.enter game play.index .empty
  | _ => .refuse session .noGameLoaded .empty

/-! ## Turns -/

/-- Runs a turn; the value tells whether a rule fired. -/
def move (session : Session) (movement : Movement) : Reply Bool :=
  match session.loaded with
  | some ⟨game, some play⟩ =>
    if play.won then
      .grant session false
        (Log.empty.info s!"input `{movement.word}` ignored: level already complete")
    else
      let turn := game.runTurn session.limits.maxRewrites (some movement) play.board
      let won := !turn.cancelled && (turn.winRequested || game.isWon turn.board)
      let log := turn.report session.limits .empty
      let log := if won then log.info s!"level {play.index} complete" else log
      let play : Play :=
        { index := play.index
          board := turn.board
          won
          undoStack := play.undoStack.push turn.record won
          subturns := turn.record.subturns }
      .grant (session.withPlay game play) (!turn.record.isEmpty) log
  | _ => .refuse session .noGameLoaded .empty

/-- Takes the latest turn back; the value tells whether there was one. -/
def undo (session : Session) : Reply Bool :=
  match session.loaded with
  | some ⟨game, some play⟩ =>
    if game.settings.noUndo then
      .refuse session .undoDisabled (Log.empty.info "undo ignored: disabled by this game")
    else
      match play.undoStack.pop? with
      | none => .grant session false .empty
      | some (record, undoStack) =>
        match play.board.revert game record.subturns with
        | (board, violations) =>
          let log := violations.foldl (fun log violation ↦
            log.error s!"undo skipped an inconsistent delta: {violation.message}") Log.empty
          .grant (session.withPlay game ⟨play.index, board, false, undoStack, []⟩) true log
  | _ => .refuse session .noGameLoaded .empty

/-- Carries out a command. -/
def obey (session : Session) : Command → Reply Bool
  | .move movement => session.move movement
  | .undo => session.undo
  | .restart => session.restart.map fun _ ↦ true

/-- Carries out the command that a text denotes, blanks around it aside. -/
def send (session : Session) (text : String) : Reply Bool :=
  match Command.ofWord? (Text.trim text) with
  | none =>
    let error := SessionError.unknownInput text
    .refuse session error (Log.empty.error error.message)
  | some command => session.obey command

end Session

end TilePuzzle
