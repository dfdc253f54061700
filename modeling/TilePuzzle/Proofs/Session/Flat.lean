import TilePuzzle.Proofs.Session.Consistent
import TilePuzzle.Proofs.Session.Copying

/-!
# Sessions of separate fields

By its form a session has a level only within a game, and an undo stack and a latest record only for
a level being played. A *flat session* has no such form: its game, its board, its phase, its undo
stack and its latest record are fields of their own, and each operation sets those that it is about.
Nothing keeps a flat session from having a phase without a board, or turns to undo without a level.

## The operations

What a request does is decided by the phase, and only then are the game and the board looked up. So
an operation may find a phase without a board and has an answer for that too. The undo stack is one
object for the whole life of the session; it is cleared when a game is opened and when a level is
entered, and clearing keeps its limit.

## The flattening

`Session.flatten` spreads a session over the fields. Every operation commutes with it: the answer,
the messages and the fields afterwards are those of the session. Only clearing asks for something,
namely that the stack of the level being played has the limit of the session, which is part of
`Session.Sound`.

## What follows

A flat session that is asked from its start is at any time the flattening of the session that is
asked the same. So its fields belong together after any requests, although no operation checks that
they do, and the answers for fields that do not belong together are never given.
-/

namespace TilePuzzle

/-! ## Flat sessions -/

/-- The place of the level that the phase speaks of. -/
def Phase.level? : Phase → Option Nat
  | .uninitialized => none
  | .levelLoaded index => some index
  | .levelWon index => some index

/-- A session of separate fields. -/
structure FlatSession where
  limits : Limits
  game : Option Game
  board : Option Board
  phase : Phase
  undoStack : UndoStack
  /-- What the latest turn did. -/
  subturns : List Subturn

/-- The answer of a flat session. -/
structure FlatReply (α : Type) where
  result : Except SessionError α
  session : FlatSession
  log : Log

namespace FlatSession

/-- A session before any game is loaded. -/
def start (limits : Limits) : FlatSession :=
  ⟨limits, none, none, .uninitialized, .empty limits.undoLimit, []⟩

/-- Whether the game, if there is one, has a setting on. -/
def hasSetting (session : FlatSession) (setting : Settings → Bool) : Bool :=
  session.game.any fun game ↦ setting game.settings

/-- Enters a level of the game. -/
def enter (session : FlatSession) (index : Nat) (log : Log) : FlatReply Unit :=
  match session.game with
  | none => ⟨.error .noGameLoaded, session, log⟩
  | some game =>
    match game.level? index with
    | none =>
      let error := SessionError.levelOutOfRange index game.levelCount
      ⟨.error error, session, log.error s!"cannot load level: {error.message}"⟩
    | some board =>
      let session := { session with
        phase := .levelLoaded index
        undoStack := session.undoStack.clear }
      if game.settings.rulesOnLevelStart then
        let turn := game.runTurn session.limits.maxRewrites none board
        ⟨.ok (), { session with board := some turn.board, subturns := turn.record.subturns },
          turn.report session.limits log⟩
      else
        ⟨.ok (), { session with board := some board, subturns := [] }, log⟩

/-- Takes a game in place of the present one and starts its first level. -/
def openGame (session : FlatSession) (game : Game) (log : Log) : FlatReply Unit :=
  let session := { session with
    game := some game
    board := none
    phase := .uninitialized
    undoStack := session.undoStack.clear
    subturns := [] }
  if game.levels.isEmpty then
    ⟨.ok (), session, log.warning "game has no levels to play"⟩
  else
    match session.enter 0 log with
    | ⟨.ok (), session, log⟩ => ⟨.ok (), session, log⟩
    | ⟨.error error, session, log⟩ =>
      ⟨.ok (), session, log.error s!"cannot start the first level: {error.message}"⟩

/-- Loads the game of a text; if the text crashes, nothing else comes of it. -/
def load (session : FlatSession) (source : String) : Except (Crash × Log) (FlatReply Unit) :=
  match (Session.readGame source).runOn .empty with
  | (.ok game, log) => .ok (session.openGame game log)
  | (.error (.refused error), log) =>
    .ok ⟨.error error, session, log.error s!"failed to load game: {error.message}"⟩
  | (.error (.crashed crash), log) => .error (crash, log)

/-- Starts a level of the game. -/
def loadLevel (session : FlatSession) (index : Nat) : FlatReply Unit :=
  if session.game.isNone then
    ⟨.error .noGameLoaded, session, Log.empty.error s!"cannot load level {index}: no game loaded"⟩
  else
    session.enter index .empty

/-- Starts the level being played afresh. -/
def restart (session : FlatSession) : FlatReply Unit :=
  match session.phase.level? with
  | none => ⟨.error .noGameLoaded, session, .empty⟩
  | some index =>
    if session.hasSetting Settings.noRestart then
      ⟨.error .restartDisabled, session,
        Log.empty.info "restart ignored: disabled by this game"⟩
    else
      session.enter index .empty

/-- Runs a turn; the value tells whether a rule fired. -/
def move (session : FlatSession) (movement : Movement) : FlatReply Bool :=
  match session.phase with
  | .uninitialized => ⟨.error .noGameLoaded, session, .empty⟩
  | .levelWon _ =>
    ⟨.ok false, session, Log.empty.info s!"input `{movement.word}` ignored: level already complete"⟩
  | .levelLoaded index =>
    match session.game, session.board with
    | some game, some board =>
      let turn := game.runTurn session.limits.maxRewrites (some movement) board
      let won := !turn.cancelled && (turn.winRequested || game.isWon turn.board)
      let log := turn.report session.limits .empty
      let session := { session with
        board := some turn.board
        subturns := turn.record.subturns
        undoStack := session.undoStack.push turn.record won }
      if won then
        ⟨.ok (!turn.record.isEmpty), { session with phase := .levelWon index },
          log.info s!"level {index} complete"⟩
      else
        ⟨.ok (!turn.record.isEmpty), session, log⟩
    | _, _ => ⟨.error .noGameLoaded, session, .empty⟩

/-- Takes the latest turn back; the value tells whether there was one. -/
def undo (session : FlatSession) : FlatReply Bool :=
  match session.phase.level? with
  | none => ⟨.error .noGameLoaded, session, .empty⟩
  | some index =>
    if session.hasSetting Settings.noUndo then
      ⟨.error .undoDisabled, session, Log.empty.info "undo ignored: disabled by this game"⟩
    else
      match session.game, session.board with
      | some game, some board =>
        match session.undoStack.pop? with
        | none => ⟨.ok false, session, .empty⟩
        | some (record, undoStack) =>
          let reverted := board.revert game record.subturns
          ⟨.ok true, { session with
              board := some reverted.1
              undoStack
              subturns := []
              phase := .levelLoaded index },
            reverted.2.foldl (fun log violation ↦
              log.error s!"undo skipped an inconsistent delta: {violation.message}") Log.empty⟩
      | _, _ => ⟨.error .noGameLoaded, session, .empty⟩

/-- Carries out the command that a text denotes, blanks around it aside. -/
def send (session : FlatSession) (text : String) : FlatReply Bool :=
  match Command.ofWord? (Text.trim text) with
  | none =>
    let error := SessionError.unknownInput text
    ⟨.error error, session, Log.empty.error error.message⟩
  | some (.move movement) => session.move movement
  | some .undo => session.undo
  | some .restart =>
    let reply := session.restart
    ⟨reply.result.map fun _ ↦ true, reply.session, reply.log⟩

/-- Answers a request. -/
def respond (session : FlatSession) : Request → Answer × FlatSession
  | .load source =>
    match session.load source with
    | .ok reply => (.done reply.result, reply.session)
    | .error (crash, _) => (.crashed crash, session)
  | .openGame game => (.done (session.openGame game.val .empty).result,
      (session.openGame game.val .empty).session)
  | .loadLevel index => (.done (session.loadLevel index).result, (session.loadLevel index).session)
  | .restart => (.done session.restart.result, session.restart.session)
  | .move movement => (.told (session.move movement).result, (session.move movement).session)
  | .send text => (.told (session.send text).result, (session.send text).session)
  | .undo => (.told session.undo.result, session.undo.session)

/-- The session after some requests. -/
def after (session : FlatSession) (requests : List Request) : FlatSession :=
  requests.foldl (fun session request ↦ (session.respond request).2) session

/-- The answers to some requests, each with what can be seen after it. -/
def trace : FlatSession → List Request → List (Answer × Sight)
  | _, [] => []
  | session, request :: requests =>
    let next := (session.respond request).2
    ((session.respond request).1, ⟨next.board, next.phase, next.undoStack.depth⟩) ::
      next.trace requests

end FlatSession

/-! ## The flattening -/

/-- The fields of a session; without a level the undo stack is empty. -/
def Session.flatten (session : Session) : FlatSession where
  limits := session.limits
  game := session.game?
  board := session.board?
  phase := session.phase
  undoStack := (session.play?.map Play.undoStack).getD (.empty session.limits.undoLimit)
  subturns := session.subturns

/-- The same answer from the fields. -/
def Reply.flatten {α : Type} (reply : Reply α) : FlatReply α :=
  ⟨reply.result, reply.session.flatten, reply.log⟩

@[simp] theorem Reply.result_flatten {α : Type} (reply : Reply α) :
    reply.flatten.result = reply.result := rfl

@[simp] theorem Reply.session_flatten {α : Type} (reply : Reply α) :
    reply.flatten.session = reply.session.flatten := rfl

namespace Session

variable {limits : Limits} {session : Session} {game : Game} {play : Play}

@[simp] theorem flatten_start (limits : Limits) : (start limits).flatten = .start limits := rfl

theorem flatten_of_loaded (h : session.loaded = some ⟨game, some play⟩) :
    session.flatten = ⟨session.limits, some game, some play.board,
      if play.won then .levelWon play.index else .levelLoaded play.index, play.undoStack,
      play.subturns⟩ := by
  rw [eq_withPlay h]
  rfl

theorem level?_phase_flatten (h : session.loaded = some ⟨game, some play⟩) :
    session.flatten.phase.level? = some play.index := by
  rw [flatten_of_loaded h]
  cases play.won <;> rfl

@[simp] theorem depth_flatten (session : Session) :
    session.flatten.undoStack.depth = session.undoDepth := by
  rw [flatten, undoDepth]
  cases session.play? <;> rfl

/-- The stack of a sound session is cleared to the stack that a level starts with. -/
theorem Sound.clear_undoStack (h : session.Sound limits) :
    session.flatten.undoStack.clear = .empty session.limits.undoLimit := by
  rcases session.play?_cases with hnone | ⟨game, play, hloaded⟩
  · rw [flatten, hnone]
    rfl
  · rw [flatten_of_loaded hloaded, UndoStack.clear, (h.play game play hloaded).limit_eq,
      h.limits_eq]
    rfl

/-! ## Each operation commutes -/

theorem enter_flatten (hgame : session.game? = some game)
    (hclear : session.flatten.undoStack.clear = .empty session.limits.undoLimit) (index : Nat)
    (log : Log) : session.flatten.enter index log = (session.enter game index log).flatten := by
  have hflat : session.flatten.game = some game := hgame
  rw [FlatSession.enter, Session.enter, hflat]
  dsimp only
  cases game.level? index with
  | none => rfl
  | some board =>
    dsimp only
    rw [hclear, Play.start]
    split
    · rfl
    · rfl

/-- A flat session opens a game as a session does: a game that has levels has a first one. -/
theorem openGame_flatten (hsound : session.Sound limits) (game : Game) (log : Log) :
    session.flatten.openGame game log = (session.openGame game log).flatten := by
  have hidle : { session.flatten with
      game := some game
      board := none
      phase := .uninitialized
      undoStack := session.flatten.undoStack.clear
      subturns := [] } = flatten { session with loaded := some ⟨game, none⟩ } := by
    rw [hsound.clear_undoStack]
    rfl
  rw [FlatSession.openGame, Session.openGame, hidle]
  by_cases hlevels : game.levels.isEmpty = true
  · rw [if_pos hlevels, if_pos hlevels]
    rfl
  · have hfirst : ∃ board, game.level? 0 = some board := by
      rw [Array.isEmpty_iff] at hlevels
      exact ⟨_, Array.getElem?_eq_getElem (Array.size_pos_iff.mpr hlevels)⟩
    obtain ⟨board, hboard⟩ := hfirst
    rw [if_neg hlevels, if_neg hlevels, enter_flatten rfl rfl, Session.enter, hboard]
    rfl

theorem load_flatten (hsound : session.Sound limits) (source : String) :
    session.flatten.load source = (session.load source).map Reply.flatten := by
  rw [FlatSession.load, Session.load]
  generalize (readGame source).runOn .empty = outcome
  obtain ⟨result, log⟩ := outcome
  cases result with
  | ok game => exact congrArg Except.ok (openGame_flatten hsound game log)
  | error failure =>
    cases failure with
    | refused error => rfl
    | crashed crash => rfl

theorem loadLevel_flatten (hsound : session.Sound limits) (index : Nat) :
    session.flatten.loadLevel index = (session.loadLevel index).flatten := by
  rw [FlatSession.loadLevel, Session.loadLevel]
  cases hloaded : session.loaded with
  | none =>
    have hgame : session.flatten.game.isNone = true := by
      rw [flatten, game?, hloaded]
      rfl
    rw [if_pos hgame]
    rfl
  | some loaded =>
    have hgame : session.flatten.game = some loaded.game := game?_of_loaded hloaded
    rw [hgame, Option.isNone_some, if_neg Bool.false_ne_true]
    exact enter_flatten hgame hsound.clear_undoStack index .empty

theorem restart_flatten (hsound : session.Sound limits) :
    session.flatten.restart = session.restart.flatten := by
  obtain ⟨limits, _ | ⟨game, _ | play⟩⟩ := session
  · rfl
  · rfl
  · rw [FlatSession.restart, level?_phase_flatten rfl, Session.restart]
    dsimp only
    by_cases hnoRestart : game.settings.noRestart = true
    · rw [if_pos hnoRestart]
      exact if_pos hnoRestart
    · rw [if_neg hnoRestart]
      exact (if_neg hnoRestart).trans (enter_flatten rfl hsound.clear_undoStack play.index .empty)

theorem move_flatten (session : Session) (movement : Movement) :
    session.flatten.move movement = (session.move movement).flatten := by
  obtain ⟨limits, _ | ⟨game, _ | ⟨index, board, won, undoStack, subturns⟩⟩⟩ := session
  · rfl
  · rfl
  · cases won with
    | true => rfl
    | false =>
      change FlatSession.move ⟨limits, some game, some board, .levelLoaded index, undoStack,
        subturns⟩ movement = _
      rw [FlatSession.move, Session.move]
      dsimp only
      generalize game.runTurn limits.maxRewrites (some movement) board = turn
      -- the phase changes only if the turn has won
      cases !turn.cancelled && (turn.winRequested || game.isWon turn.board) with
      | true => rfl
      | false => rfl

theorem undo_flatten (session : Session) : session.flatten.undo = session.undo.flatten := by
  obtain ⟨limits, _ | ⟨game, _ | play⟩⟩ := session
  · rfl
  · rfl
  · rw [FlatSession.undo, level?_phase_flatten rfl, Session.undo]
    dsimp only
    by_cases hnoUndo : game.settings.noUndo = true
    · rw [if_pos hnoUndo]
      exact if_pos hnoUndo
    · rw [if_neg hnoUndo]
      refine (if_neg hnoUndo).trans ?_
      obtain ⟨index, board, won, ⟨limit, _ | ⟨record, records⟩⟩, subturns⟩ := play
      · rfl
      · rfl

theorem send_flatten (hsound : session.Sound limits) (text : String) :
    session.flatten.send text = (session.send text).flatten := by
  rw [FlatSession.send, Session.send]
  cases Command.ofWord? (Text.trim text) with
  | none => rfl
  | some command =>
    cases command with
    | move movement => exact move_flatten session movement
    | undo => exact undo_flatten session
    | restart =>
      dsimp only
      rw [restart_flatten hsound]
      rfl

/-- **No request tells the two apart**: both give the same answer, and the fields afterwards are
those of the session. -/
theorem respond_flatten (hsound : session.Sound limits) (request : Request) :
    session.flatten.respond request =
      ((session.respond request).1, (session.respond request).2.flatten) := by
  cases request with
  | load source =>
    rw [FlatSession.respond, Session.respond, load_flatten hsound]
    cases session.load source <;> rfl
  | openGame game => simp [FlatSession.respond, Session.respond, openGame_flatten hsound]
  | loadLevel index => simp [FlatSession.respond, Session.respond, loadLevel_flatten hsound]
  | restart => simp [FlatSession.respond, Session.respond, restart_flatten hsound]
  | move movement => simp [FlatSession.respond, Session.respond, move_flatten]
  | send text => simp [FlatSession.respond, Session.respond, send_flatten hsound]
  | undo => simp [FlatSession.respond, Session.respond, undo_flatten]

/-! ## Whole histories -/

theorem after_flatten (hsound : session.Sound limits) (requests : List Request) :
    session.flatten.after requests = (session.after requests).flatten := by
  induction requests generalizing session with
  | nil => rfl
  | cons request requests ih =>
    rw [FlatSession.after, List.foldl_cons, respond_flatten hsound]
    exact ih ((outlasts_sound limits).respond hsound request)

theorem trace_flatten (hsound : session.Sound limits) (requests : List Request) :
    session.flatten.trace requests = session.trace requests := by
  induction requests generalizing session with
  | nil => rfl
  | cons request requests ih =>
    rw [FlatSession.trace, Session.trace, respond_flatten hsound]
    dsimp only
    rw [ih ((outlasts_sound limits).respond hsound request), depth_flatten]
    rfl

end Session

namespace FlatSession

/-- **The fields are those of the session** that is asked the same, and so are the answers. -/
theorem after_start (limits : Limits) (requests : List Request) :
    (start limits).after requests = ((Session.start limits).after requests).flatten ∧
      (start limits).trace requests = (Session.start limits).trace requests := by
  have hsound := Session.sound_start limits
  rw [← Session.flatten_start]
  exact ⟨Session.after_flatten hsound requests, Session.trace_flatten hsound requests⟩

/-! ## What the fields say together -/

/-- The fields belong together. -/
structure Consistent (session : FlatSession) : Prop where
  uninitialized_iff : session.phase = .uninitialized ↔ session.board = none
  uninitialized : session.phase = .uninitialized →
    session.undoStack.depth = 0 ∧ session.subturns = []
  /-- A level is played on a board of its shape, with as many slots in each cell. -/
  playing : ∀ index, session.phase = .levelLoaded index ∨ session.phase = .levelWon index →
    ∃ game board level, session.game = some game ∧ session.board = some board ∧
      index < game.levelCount ∧ game.level? index = some level ∧ board.index = index ∧
      board.width = level.width ∧ board.height = level.height ∧
      board.cells.map (fun cell ↦ cell.slots.length) =
        level.cells.map (fun cell ↦ cell.slots.length)
  fits : ∀ game board, session.game = some game → session.board = some board → board.Fits game
  isStill : ∀ board, session.board = some board → board.IsStill
  bears : ∀ game board, session.game = some game → session.board = some board →
    board.Bears game session.subturns
  limit_eq : session.undoStack.limit = session.limits.undoLimit
  undoDepth_le : ∀ limit, session.limits.undoLimit = some limit → session.undoStack.depth ≤ limit

theorem consistent_flatten {limits : Limits} {session : Session} (h : session.Sound limits) :
    session.flatten.Consistent where
  uninitialized_iff := h.consistent.uninitialized_iff
  uninitialized := by
    rw [Session.depth_flatten]
    exact h.consistent.uninitialized
  playing index hphase := by
    obtain ⟨game, board, level, hgame, hboard, hindex, hrest⟩ := h.consistent.playing index hphase
    rw [Session.levelCount, hgame] at hindex
    exact ⟨game, board, level, hgame, hboard, hindex, hrest⟩
  fits := h.consistent.fits
  isStill := h.consistent.isStill
  bears := h.consistent.bears
  limit_eq := congrArg UndoStack.limit h.clear_undoStack
  undoDepth_le limit hlimit := by
    rw [Session.depth_flatten]
    exact h.consistent.undoDepth_le limit hlimit

/-- **The fields belong together at any time**, though each is set by itself. -/
theorem consistent_fields (limits : Limits) (requests : List Request) :
    ((start limits).after requests).Consistent := by
  rw [(after_start limits requests).1]
  exact consistent_flatten (Session.sound_after limits requests)

end FlatSession

end TilePuzzle
