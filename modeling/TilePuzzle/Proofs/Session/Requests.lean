import TilePuzzle.Proofs.Definition.Game

/-!
# Histories of a session

A host talks to a session by requests, one after the other.

## The operations

While a level is played, each operation comes down to one equation; while none is, every operation
but loading is refused. These equations are all that is used of the operations elsewhere.

## Requests

`Session.respond` puts the operations under one roof: the answer to a request together with the
session afterwards. Messages are left out, since no later answer depends on them. Games that do not
come from a text are admitted too, as long as some document defines them.

## What outlasts requests

A property that every operation preserves holds at any time. Reading a text comes down to opening a
game and a command to the operation that it names, so five operations are to be looked at.
-/

namespace TilePuzzle

/-! ## Replies -/

namespace Reply

variable {α β : Type} (session : Session) (value : α) (error : SessionError) (log : Log)

@[simp] theorem result_grant : (grant session value log).result = .ok value := rfl

@[simp] theorem session_grant : (grant session value log).session = session := rfl

@[simp] theorem session_refuse : (refuse session error log : Reply α).session = session := rfl

@[simp] theorem result_map (f : α → β) (reply : Reply α) :
    (reply.map f).result = reply.result.map f := rfl

@[simp] theorem session_map (f : α → β) (reply : Reply α) :
    (reply.map f).session = reply.session := rfl

end Reply

/-! ## The operations -/

namespace Play

/-- Whether a level is won after a turn. -/
def wonAfter (game : Game) (turn : Turn) : Bool :=
  !turn.cancelled && (turn.winRequested || game.isWon turn.board)

/-- The level being played after a turn. -/
def next (game : Game) (play : Play) (turn : Turn) : Play where
  index := play.index
  board := turn.board
  won := wonAfter game turn
  undoStack := play.undoStack.push turn.record (wonAfter game turn)
  subturns := turn.record.subturns

end Play

namespace Session

section Shown

variable (session : Session) (game : Game) (play : Play)

@[simp] theorem limits_withPlay : (session.withPlay game play).limits = session.limits := rfl

@[simp] theorem loaded_withPlay :
    (session.withPlay game play).loaded = some ⟨game, some play⟩ := rfl

@[simp] theorem game?_withPlay : (session.withPlay game play).game? = some game := rfl

@[simp] theorem board?_withPlay : (session.withPlay game play).board? = some play.board := rfl

@[simp] theorem undoDepth_withPlay :
    (session.withPlay game play).undoDepth = play.undoStack.depth := rfl

@[simp] theorem subturns_withPlay : (session.withPlay game play).subturns = play.subturns := rfl

@[simp] theorem phase_withPlay : (session.withPlay game play).phase =
    if play.won then .levelWon play.index else .levelLoaded play.index := rfl

end Shown

variable {session : Session} {game : Game} {play : Play}

theorem eq_withPlay (h : session.loaded = some ⟨game, some play⟩) :
    session = session.withPlay game play := by
  obtain ⟨limits, loaded⟩ := session
  obtain rfl := h
  rfl

theorem game?_of_loaded {play : Option Play} (h : session.loaded = some ⟨game, play⟩) :
    session.game? = some game := by
  rw [game?, h, Option.map_some]

theorem play?_of_loaded {play : Option Play} (h : session.loaded = some ⟨game, play⟩) :
    session.play? = play := by
  rw [Session.play?, h, Option.bind_some]

theorem board?_of_loaded (h : session.loaded = some ⟨game, some play⟩) :
    session.board? = some play.board := by
  rw [board?, play?_of_loaded h, Option.map_some]

theorem phase_of_loaded (h : session.loaded = some ⟨game, some play⟩) :
    session.phase = if play.won then .levelWon play.index else .levelLoaded play.index := by
  rw [phase, play?_of_loaded h]

theorem play?_cases (session : Session) :
    session.play? = none ∨ ∃ game play, session.loaded = some ⟨game, some play⟩ := by
  obtain ⟨limits, _ | ⟨game, _ | play⟩⟩ := session
  · exact .inl rfl
  · exact .inl rfl
  · exact .inr ⟨game, play, rfl⟩

theorem restart_of_play?_eq_none (h : session.play? = none) :
    session.restart = .refuse session .noGameLoaded .empty := by
  obtain ⟨limits, _ | ⟨game, _ | play⟩⟩ := session
  · rfl
  · rfl
  · cases h

theorem restart_of_loaded (h : session.loaded = some ⟨game, some play⟩) : session.restart =
    if game.settings.noRestart then
      .refuse session .restartDisabled (Log.empty.info "restart ignored: disabled by this game")
    else session.enter game play.index .empty := by
  rw [restart, h]

theorem move_of_play?_eq_none (h : session.play? = none) (movement : Movement) :
    session.move movement = .refuse session .noGameLoaded .empty := by
  obtain ⟨limits, _ | ⟨game, _ | play⟩⟩ := session
  · rfl
  · rfl
  · cases h

theorem move_of_loaded (h : session.loaded = some ⟨game, some play⟩) (movement : Movement) :
    session.move movement =
      if play.won then
        .grant session false
          (Log.empty.info s!"input `{movement.word}` ignored: level already complete")
      else
        let turn := game.runTurn session.limits.maxRewrites (some movement) play.board
        let log := turn.report session.limits .empty
        .grant (session.withPlay game (play.next game turn)) (!turn.record.isEmpty)
          (if Play.wonAfter game turn then log.info s!"level {play.index} complete" else log) := by
  rw [move, h]
  rfl

theorem undo_of_play?_eq_none (h : session.play? = none) :
    session.undo = .refuse session .noGameLoaded .empty := by
  obtain ⟨limits, _ | ⟨game, _ | play⟩⟩ := session
  · rfl
  · rfl
  · cases h

theorem undo_of_loaded (h : session.loaded = some ⟨game, some play⟩) : session.undo =
    if game.settings.noUndo then
      .refuse session .undoDisabled (Log.empty.info "undo ignored: disabled by this game")
    else
      match play.undoStack.pop? with
      | none => .grant session false .empty
      | some (record, undoStack) =>
        let reverted := play.board.revert game record.subturns
        .grant (session.withPlay game ⟨play.index, reverted.1, false, undoStack, []⟩) true
          (reverted.2.foldl (fun log violation ↦
            log.error s!"undo skipped an inconsistent delta: {violation.message}") Log.empty) := by
  obtain ⟨limits, loaded⟩ := session
  obtain rfl : loaded = some ⟨game, some play⟩ := h
  rfl

end Session

/-! ## Requests -/

/-- What a host may ask of a session. -/
inductive Request
  /-- To read the game of a text and to play it. -/
  | load (source : String)
  /-- To play a game that some document defines. -/
  | openGame (game : { game : Game // game.IsDefined })
  | loadLevel (index : Nat)
  | restart
  | move (movement : Movement)
  | send (text : String)
  | undo

/-- What a host is told. -/
inductive Answer
  /-- The request was granted or refused. -/
  | done (result : Except SessionError Unit)
  /-- The same, and a request that was granted has a value. -/
  | told (result : Except SessionError Bool)
  /-- The text could not be read to its end. -/
  | crashed (crash : Crash)

namespace Session

/-- Answers a request; a text that crashes leaves the session as it is. -/
def respond (session : Session) : Request → Answer × Session
  | .load source =>
    match session.load source with
    | .ok reply => (.done reply.result, reply.session)
    | .error (crash, _) => (.crashed crash, session)
  | .openGame game => (.done (session.openGame game.val .empty).result,
      (session.openGame game.val .empty).session)
  | .loadLevel index => (.done (session.loadLevel index).result, (session.loadLevel index).session)
  | .restart => (.done session.restart.result, session.restart.session)
  | .move movement => (.told (session.move movement).result, (session.move movement).session)
  | .send text => (.told (session.send text).result, (session.send text).session)
  | .undo => (.told session.undo.result, session.undo.session)

/-- The session after some requests. -/
def after (session : Session) (requests : List Request) : Session :=
  requests.foldl (fun session request ↦ (session.respond request).2) session

end Session

/-! ## Properties that no request spoils -/

namespace Session

variable {P : Session → Prop} {session : Session}

/-- The operations that a property of sessions has to outlast. Reading a text comes down to opening
the game, and commands to the operation that they name. -/
structure Outlasts (P : Session → Prop) : Prop where
  openGame : ∀ (session : Session) (game : Game) (log : Log), P session → game.IsDefined →
    P (session.openGame game log).session
  loadLevel : ∀ (session : Session) (index : Nat), P session → P (session.loadLevel index).session
  restart : ∀ session : Session, P session → P session.restart.session
  move : ∀ (session : Session) (movement : Movement), P session → P (session.move movement).session
  undo : ∀ session : Session, P session → P session.undo.session

theorem Outlasts.load (h : Outlasts P) (hsession : P session) {source : String} {reply : Reply Unit}
    (hload : session.load source = .ok reply) : P reply.session := by
  rw [Session.load] at hload
  split at hload
  · next game log hread =>
    cases hload
    exact h.openGame session game log hsession (isDefined_of_readGame ⟨.empty, log, hread⟩)
  · cases hload
    exact hsession
  · simp at hload

theorem Outlasts.send (h : Outlasts P) (hsession : P session) (text : String) :
    P (session.send text).session := by
  rw [Session.send]
  split
  · exact hsession
  · next command hcommand =>
    cases command with
    | move movement => exact h.move session movement hsession
    | undo => exact h.undo session hsession
    | restart => exact h.restart session hsession

theorem Outlasts.respond (h : Outlasts P) (hsession : P session) (request : Request) :
    P (session.respond request).2 := by
  rw [Session.respond.eq_def]
  cases request with
  | load source =>
    dsimp only
    split
    · next reply hload => exact h.load hsession hload
    · exact hsession
  | openGame game => exact h.openGame session game.val .empty hsession game.property
  | loadLevel index => exact h.loadLevel session index hsession
  | restart => exact h.restart session hsession
  | move movement => exact h.move session movement hsession
  | send text =>
    -- without this, matching the goal would unfold the reading of the text
    dsimp only
    exact h.send hsession text
  | undo => exact h.undo session hsession

/-- **What outlasts every operation holds at any time.** -/
theorem Outlasts.after (h : Outlasts P) (hsession : P session) (requests : List Request) :
    P (session.after requests) :=
  List.foldlRecOn (motive := P) requests _ hsession fun _ hbefore request _ ↦
    h.respond hbefore request

end Session

end TilePuzzle
