import TilePuzzle.Proofs.Session.Requests

/-!
# Sessions that keep copies of boards

A plain way to undo turns is to keep a copy of the board before each of them. A *copying session*
does so; otherwise it answers requests as a session does, and it keeps nothing of what a turn did.
It is the measure for sessions, which keep records of changes instead.

## What a host sees

A host sees the answers to its requests and after each of them the board, the phase and the number
of turns that can be undone (`Sight`). Sessions of either kind are compared by these only; how they
remember a turn is their own matter.
-/

namespace TilePuzzle

/-! ## Copying sessions -/

/-- A level being played. -/
structure CopyPlay where
  index : Nat
  board : Board
  won : Bool
  /-- The boards before the turns that can be undone, the latest first. -/
  copies : List Board

namespace CopyPlay

/-- Keeps a copy; past the limit the oldest is dropped. -/
def keep (limit : Option Nat) (board : Board) (copies : List Board) : List Board :=
  match limit with
  | none => board :: copies
  | some limit => (board :: copies).take limit

/-- The level in a given place as it starts, possibly with a first turn without input; a cancelled
turn is as if it had not been. -/
def start (limits : Limits) (game : Game) (index : Nat) (board : Board) : CopyPlay :=
  let turn := game.runTurn limits.maxRewrites none board
  if game.settings.rulesOnLevelStart && !turn.cancelled then ⟨index, turn.board, false, []⟩
  else ⟨index, board, false, []⟩

/-- Runs a turn, which is recorded if a rule fired or the level is won, and tells whether a rule
fired. A cancelled turn is as if it had not been. -/
def move (limits : Limits) (game : Game) (movement : Movement) (play : CopyPlay) :
    CopyPlay × Bool :=
  let turn := game.runTurn limits.maxRewrites (some movement) play.board
  if turn.cancelled then
    (play, false)
  else
    let fired := !turn.record.isEmpty
    let won := turn.winRequested || game.isWon turn.board
    let copies :=
      if (fired || won) && limits.undoLimit != some 0 then
        keep limits.undoLimit play.board play.copies
      else
        play.copies
    (⟨play.index, turn.board, won, copies⟩, fired)

end CopyPlay

/-- A session that keeps copies. -/
structure CopySession where
  limits : Limits
  /-- The game and, if it has levels, the level being played. -/
  loaded : Option (Game × Option CopyPlay)

namespace CopySession

/-- A session before any game is loaded. -/
def start (limits : Limits) : CopySession := ⟨limits, none⟩

/-- The level being played. -/
def play? (session : CopySession) : Option CopyPlay := session.loaded.bind Prod.snd

/-- Where the session stands. -/
def phase (session : CopySession) : Phase :=
  match session.play? with
  | none => .uninitialized
  | some play => if play.won then .levelWon play.index else .levelLoaded play.index

/-- The same session with another state of the level being played. -/
def withPlay (session : CopySession) (game : Game) (play : CopyPlay) : CopySession :=
  { session with loaded := some (game, some play) }

/-- Enters a level of a game. -/
def enter (session : CopySession) (game : Game) (index : Nat) :
    Except SessionError Unit × CopySession :=
  match game.level? index with
  | none => (.error (.levelOutOfRange index game.levelCount), session)
  | some board =>
    (.ok (), session.withPlay game (CopyPlay.start session.limits game index board))

/-- Takes a game in place of the present one and starts its first level. -/
def openGame (session : CopySession) (game : Game) : Except SessionError Unit × CopySession :=
  let session := { session with loaded := some (game, none) }
  if game.levels.isEmpty then (.ok (), session) else session.enter game 0

/-- Starts a level of the game. -/
def loadLevel (session : CopySession) (index : Nat) : Except SessionError Unit × CopySession :=
  match session.loaded with
  | none => (.error .noGameLoaded, session)
  | some (game, _) => session.enter game index

/-- Starts the level being played afresh. -/
def restart (session : CopySession) : Except SessionError Unit × CopySession :=
  match session.loaded with
  | some (game, some play) =>
    if game.settings.noRestart then (.error .restartDisabled, session)
    else session.enter game play.index
  | _ => (.error .noGameLoaded, session)

/-- Runs a turn. -/
def move (session : CopySession) (movement : Movement) :
    Except SessionError Bool × CopySession :=
  match session.loaded with
  | some (game, some play) =>
    if play.won then
      (.ok false, session)
    else
      match play.move session.limits game movement with
      | (play, fired) => (.ok fired, session.withPlay game play)
  | _ => (.error .noGameLoaded, session)

/-- Goes back to the latest copy. -/
def undo (session : CopySession) : Except SessionError Bool × CopySession :=
  match session.loaded with
  | some (game, some play) =>
    if game.settings.noUndo then
      (.error .undoDisabled, session)
    else
      match play.copies with
      | [] => (.ok false, session)
      | board :: copies => (.ok true, session.withPlay game ⟨play.index, board, false, copies⟩)
  | _ => (.error .noGameLoaded, session)

/-- Carries out the command that a text denotes. -/
def send (session : CopySession) (text : String) : Except SessionError Bool × CopySession :=
  match Command.ofWord? (Text.trim text) with
  | none => (.error (.unknownInput text), session)
  | some (.move movement) => session.move movement
  | some .undo => session.undo
  | some .restart => (session.restart.1.map fun _ ↦ true, session.restart.2)

/-- Answers a request. -/
def respond (session : CopySession) : Request → Answer × CopySession
  | .load source =>
    match ((Session.readGame source).runOn .empty).1 with
    | .ok game => (.done (session.openGame game).1, (session.openGame game).2)
    | .error (.refused error) => (.done (.error error), session)
    | .error (.crashed crash) => (.crashed crash, session)
  | .openGame game => (.done (session.openGame game.val).1, (session.openGame game.val).2)
  | .loadLevel index => (.done (session.loadLevel index).1, (session.loadLevel index).2)
  | .restart => (.done session.restart.1, session.restart.2)
  | .move movement => (.told (session.move movement).1, (session.move movement).2)
  | .send text => (.told (session.send text).1, (session.send text).2)
  | .undo => (.told session.undo.1, session.undo.2)

end CopySession

/-! ## The operations -/

namespace CopySession

variable {session : CopySession} {game : Game} {play : CopyPlay}

theorem restart_of_play?_eq_none (h : session.play? = none) :
    session.restart = (.error .noGameLoaded, session) := by
  obtain ⟨limits, _ | ⟨game, _ | play⟩⟩ := session
  · rfl
  · rfl
  · cases h

theorem restart_of_loaded (h : session.loaded = some (game, some play)) : session.restart =
    if game.settings.noRestart then (.error .restartDisabled, session)
    else session.enter game play.index := by
  rw [restart, h]

theorem move_of_play?_eq_none (h : session.play? = none) (movement : Movement) :
    session.move movement = (.error .noGameLoaded, session) := by
  obtain ⟨limits, _ | ⟨game, _ | play⟩⟩ := session
  · rfl
  · rfl
  · cases h

theorem move_of_loaded (h : session.loaded = some (game, some play)) (movement : Movement) :
    session.move movement =
      if play.won then (.ok false, session)
      else (.ok (play.move session.limits game movement).2,
        session.withPlay game (play.move session.limits game movement).1) := by
  rw [move, h]

theorem undo_of_play?_eq_none (h : session.play? = none) :
    session.undo = (.error .noGameLoaded, session) := by
  obtain ⟨limits, _ | ⟨game, _ | play⟩⟩ := session
  · rfl
  · rfl
  · cases h

theorem undo_of_loaded (h : session.loaded = some (game, some play)) : session.undo =
    if game.settings.noUndo then
      (.error .undoDisabled, session)
    else
      match play.copies with
      | [] => (.ok false, session)
      | board :: copies =>
        (.ok true, session.withPlay game ⟨play.index, board, false, copies⟩) := by
  obtain ⟨limits, loaded⟩ := session
  obtain rfl : loaded = some (game, some play) := h
  rfl

end CopySession

/-! ## What a host sees -/

/-- What can be seen of a session of either kind. -/
structure Sight where
  board : Option Board
  phase : Phase
  undoDepth : Nat

/-- What can be seen of a session. -/
def Session.sight (session : Session) : Sight :=
  ⟨session.board?, session.phase, session.undoDepth⟩

/-- What can be seen of a copying session. -/
def CopySession.sight (session : CopySession) : Sight where
  board := session.play?.map CopyPlay.board
  phase := session.phase
  undoDepth := (session.play?.map fun play ↦ play.copies.length).getD 0

/-- The answers to some requests, each with what can be seen after it. -/
def Session.trace : Session → List Request → List (Answer × Sight)
  | _, [] => []
  | session, request :: requests =>
    ((session.respond request).1, (session.respond request).2.sight) ::
      (session.respond request).2.trace requests

/-- The answers to some requests, each with what can be seen after it. -/
def CopySession.trace : CopySession → List Request → List (Answer × Sight)
  | _, [] => []
  | session, request :: requests =>
    ((session.respond request).1, (session.respond request).2.sight) ::
      (session.respond request).2.trace requests

end TilePuzzle
