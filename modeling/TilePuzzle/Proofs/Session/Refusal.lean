import TilePuzzle.Proofs.Session.Requests
import TilePuzzle.Proofs.Settled

/-!
# Refused requests

Whether a request is refused, and why, can be read off the session before it is carried out. This is
so although some requests get far before they fail: a text may be read to its end and then turn out
to define no game, and a command may be understood and then not be allowed. Whatever was done by
then, a refused request leaves the session as it was, with its game, its board, its phase, its undo
stack, its latest record and its limits.

Two requests come to nothing without being refused: taking back where there is nothing to take back,
and moving in a level that is won.

## Replies

`Reply.Heeds` says of a reply that it refuses for a given reason and keeps the session, or that it
grants without one. It is shown of each operation with the objection to it, and since the objection
to a request is that to the operation it comes down to, of every request.
-/

namespace TilePuzzle

/-! ## Reasons to refuse -/

/-- The error of a result. -/
def errorOf? {α : Type} : Except SessionError α → Option SessionError
  | .error error => some error
  | .ok _ => none

/-- The error that a host is told. -/
def Answer.error? : Answer → Option SessionError
  | done result => errorOf? result
  | told result => errorOf? result
  | crashed _ => none

/-- The command that a request gives, by itself or as a text. -/
def Request.command? : Request → Option Command
  | load _ => none
  | openGame _ => none
  | loadLevel _ => none
  | restart => some .restart
  | move movement => some (.move movement)
  | send text => Command.ofWord? (Text.trim text)
  | undo => some .undo

/-- Why a level of a game cannot be entered. -/
def Game.objection? (game : Game) (index : Nat) : Option SessionError :=
  if index < game.levelCount then none else some (.levelOutOfRange index game.levelCount)

namespace Session

/-- Why a command cannot be carried out. -/
def commandObjection? (session : Session) (command : Command) : Option SessionError :=
  match session.loaded with
  | some ⟨game, some play⟩ =>
    match command with
    | .move _ => none
    | .undo => if game.settings.noUndo then some .undoDisabled else none
    | .restart => if game.settings.noRestart then some .restartDisabled
      else game.objection? play.index
  | _ => some .noGameLoaded

/-- Why a text gives no game. -/
def sourceObjection? (source : String) : Option SessionError :=
  match ((readGame source).runOn .empty).1 with
  | .error (.refused error) => some error
  | .error (.crashed _) => none
  | .ok _ => none

/-- Why a request cannot be granted. -/
def objection? (session : Session) : Request → Option SessionError
  | .load source => sourceObjection? source
  | .openGame _ => none
  | .loadLevel index =>
    match session.game? with
    | none => some .noGameLoaded
    | some game => game.objection? index
  | .restart => session.commandObjection? .restart
  | .move movement => session.commandObjection? (.move movement)
  | .send text =>
    match Command.ofWord? (Text.trim text) with
    | none => some (.unknownInput text)
    | some command => session.commandObjection? command
  | .undo => session.commandObjection? .undo

end Session

/-! ## Replies that heed objections -/

/-- The reply refuses for a given reason and keeps the session, or it grants without one. -/
structure Reply.Heeds {α : Type} (session : Session) (objection? : Option SessionError)
    (reply : Reply α) : Prop where
  errorOf?_eq : errorOf? reply.result = objection?
  session_eq : ∀ error, objection? = some error → reply.session = session

namespace Reply

variable {α β : Type} {session : Session} {objection? : Option SessionError} {reply : Reply α}

theorem heeds_refuse (session : Session) (error : SessionError) (log : Log) :
    (refuse session error log : Reply α).Heeds session (some error) := ⟨rfl, fun _ _ ↦ rfl⟩

theorem heeds_grant (session next : Session) (value : α) (log : Log) :
    (grant next value log).Heeds session none := ⟨rfl, fun _ h ↦ absurd h (by simp)⟩

theorem Heeds.map (h : reply.Heeds session objection?) (f : α → β) :
    (reply.map f).Heeds session objection? where
  errorOf?_eq := by
    rw [← h.errorOf?_eq, result_map]
    cases reply.result <;> rfl
  session_eq := by simpa using h.session_eq

/-- A reply without an error grants, so it heeds no objection of any session. -/
theorem Heeds.of_none (h : reply.Heeds session none) (other : Session) :
    reply.Heeds other none := ⟨h.errorOf?_eq, fun _ h ↦ absurd h (by simp)⟩

end Reply

namespace Session

variable {session : Session}

theorem commandObjection?_of_play?_eq_none (h : session.play? = none) (command : Command) :
    session.commandObjection? command = some .noGameLoaded := by
  obtain ⟨limits, _ | ⟨game, _ | play⟩⟩ := session
  · rfl
  · rfl
  · cases h

theorem commandObjection?_of_loaded {game : Game} {play : Play}
    (h : session.loaded = some ⟨game, some play⟩) (command : Command) :
    session.commandObjection? command = match command with
      | .move _ => none
      | .undo => if game.settings.noUndo then some .undoDisabled else none
      | .restart =>
        if game.settings.noRestart then some .restartDisabled else game.objection? play.index := by
  rw [commandObjection?, h]

theorem heeds_enter (session : Session) (game : Game) (index : Nat) (log : Log) :
    (session.enter game index log).Heeds session (game.objection? index) := by
  rw [enter, Game.objection?]
  by_cases hindex : index < game.levelCount
  · have hlevel : game.level? index = some game.levels[index] := Array.getElem?_eq_getElem hindex
    rw [if_pos hindex, hlevel]
    exact Reply.heeds_grant ..
  · have hlevel : game.level? index = none := Array.getElem?_eq_none (Nat.le_of_not_lt hindex)
    rw [if_neg hindex, hlevel]
    exact Reply.heeds_refuse ..

/-- A game is always opened: if it has levels, it has a first one. -/
theorem heeds_openGame (session : Session) (game : Game) (log : Log) :
    (session.openGame game log).Heeds session none := by
  rw [openGame]
  split
  · exact Reply.heeds_grant ..
  · next hlevels =>
    have hfirst : 0 < game.levelCount := by
      rw [Array.isEmpty_iff] at hlevels
      exact Array.size_pos_iff.mpr hlevels
    have henter := heeds_enter { session with loaded := some ⟨game, none⟩ } game 0 log
    rw [Game.objection?, if_pos hfirst] at henter
    exact henter.of_none session

/-- Reading and building leave nothing behind when they fail. -/
theorem heeds_load {source : String} {reply : Reply Unit} (h : session.load source = .ok reply) :
    reply.Heeds session (sourceObjection? source) := by
  rw [load] at h
  rw [sourceObjection?]
  split at h
  · next game log hread =>
    cases h
    rw [hread]
    exact heeds_openGame session game log
  · next error log hread =>
    cases h
    rw [hread]
    exact Reply.heeds_refuse ..
  · simp at h

theorem sourceObjection?_of_crash {source : String} {failure : Crash × Log}
    (h : session.load source = .error failure) : sourceObjection? source = none := by
  rw [load] at h
  rw [sourceObjection?]
  split at h
  · simp at h
  · simp at h
  · next crash log hread => rw [hread]

theorem heeds_loadLevel (session : Session) (index : Nat) :
    (session.loadLevel index).Heeds session (session.objection? (.loadLevel index)) := by
  rw [loadLevel, objection?, game?]
  cases session.loaded with
  | none => exact Reply.heeds_refuse ..
  | some loaded => exact heeds_enter session loaded.game index .empty

theorem heeds_restart (session : Session) :
    session.restart.Heeds session (session.commandObjection? .restart) := by
  rcases session.play?_cases with hnone | ⟨game, play, hloaded⟩
  · rw [restart_of_play?_eq_none hnone, commandObjection?_of_play?_eq_none hnone]
    exact Reply.heeds_refuse ..
  · rw [restart_of_loaded hloaded]
    simp only [commandObjection?_of_loaded hloaded]
    by_cases hnoRestart : game.settings.noRestart = true
    · rw [if_pos hnoRestart, if_pos hnoRestart]
      exact Reply.heeds_refuse ..
    · rw [if_neg hnoRestart, if_neg hnoRestart]
      exact heeds_enter session game play.index .empty

theorem heeds_move (session : Session) (movement : Movement) :
    (session.move movement).Heeds session (session.commandObjection? (.move movement)) := by
  rcases session.play?_cases with hnone | ⟨game, play, hloaded⟩
  · rw [move_of_play?_eq_none hnone, commandObjection?_of_play?_eq_none hnone]
    exact Reply.heeds_refuse ..
  · rw [move_of_loaded hloaded]
    simp only [commandObjection?_of_loaded hloaded]
    split <;> exact Reply.heeds_grant ..

theorem heeds_undo (session : Session) :
    session.undo.Heeds session (session.commandObjection? .undo) := by
  rcases session.play?_cases with hnone | ⟨game, play, hloaded⟩
  · rw [undo_of_play?_eq_none hnone, commandObjection?_of_play?_eq_none hnone]
    exact Reply.heeds_refuse ..
  · rw [undo_of_loaded hloaded]
    simp only [commandObjection?_of_loaded hloaded]
    by_cases hnoUndo : game.settings.noUndo = true
    · rw [if_pos hnoUndo, if_pos hnoUndo]
      exact Reply.heeds_refuse ..
    · rw [if_neg hnoUndo, if_neg hnoUndo]
      split <;> exact Reply.heeds_grant ..

theorem heeds_obey (session : Session) (command : Command) :
    (session.obey command).Heeds session (session.commandObjection? command) := by
  cases command with
  | move movement => exact heeds_move session movement
  | undo => exact heeds_undo session
  | restart => exact (heeds_restart session).map _

theorem heeds_send (session : Session) (text : String) :
    (session.send text).Heeds session (session.objection? (.send text)) := by
  rw [send, objection?]
  cases Command.ofWord? (Text.trim text) with
  | none => exact Reply.heeds_refuse ..
  | some command => exact heeds_obey session command

/-! ## Requests that come to nothing -/

theorem session_undo_of_false (h : session.undo.result = .ok false) :
    session.undo.session = session := by
  rcases session.play?_cases with hnone | ⟨game, play, hloaded⟩
  · simp [undo_of_play?_eq_none hnone]
  · rw [undo_of_loaded hloaded] at h ⊢
    split at h
    · cases h
    · next hnoUndo =>
      rw [if_neg hnoUndo]
      split at h
      · rfl
      · -- a turn that is taken back is told as such
        cases h

theorem move_of_isComplete (h : session.isComplete = true) (movement : Movement) :
    (session.move movement).result = .ok false ∧ (session.move movement).session = session := by
  rcases session.play?_cases with hnone | ⟨game, play, hloaded⟩
  · rw [isComplete, hnone] at h
    cases h
  · rw [isComplete, play?_of_loaded hloaded, Option.any_some] at h
    simp [move_of_loaded hloaded, h]

theorem respond_of_command? {request : Request} {command : Command}
    (hcommand : request.command? = some command) (hrestart : command ≠ .restart) :
    session.respond request =
      (.told (session.obey command).result, (session.obey command).session) := by
  cases request with
  | load source => cases hcommand
  | openGame game => cases hcommand
  | loadLevel index => cases hcommand
  | restart =>
    cases hcommand
    exact absurd rfl hrestart
  | move movement =>
    cases hcommand
    rfl
  | send text =>
    have hword : Command.ofWord? (Text.trim text) = some command := hcommand
    rw [respond, send, hword]
  | undo =>
    cases hcommand
    rfl

/-! ## Requests -/

/-- The answer tells the objection, and with an objection the session stays as it is. -/
theorem respond_heeds (session : Session) (request : Request) :
    (session.respond request).1.error? = session.objection? request ∧
      ∀ error, session.objection? request = some error →
        (session.respond request).2 = session := by
  rw [respond.eq_def]
  cases request with
  | load source =>
    dsimp only
    cases hload : session.load source with
    | ok reply => exact ⟨(heeds_load hload).errorOf?_eq, (heeds_load hload).session_eq⟩
    | error failure =>
      obtain ⟨crash, log⟩ := failure
      exact ⟨(sourceObjection?_of_crash hload).symm, fun _ _ ↦ rfl⟩
  | openGame game =>
    have h := heeds_openGame session game.val .empty
    exact ⟨h.errorOf?_eq, h.session_eq⟩
  | loadLevel index =>
    have h := heeds_loadLevel session index
    exact ⟨h.errorOf?_eq, h.session_eq⟩
  | restart =>
    have h := heeds_restart session
    exact ⟨h.errorOf?_eq, h.session_eq⟩
  | move movement =>
    have h := heeds_move session movement
    exact ⟨h.errorOf?_eq, h.session_eq⟩
  | send text =>
    have h := heeds_send session text
    dsimp only
    exact ⟨h.errorOf?_eq, h.session_eq⟩
  | undo =>
    have h := heeds_undo session
    exact ⟨h.errorOf?_eq, h.session_eq⟩

/-- **A request is refused for a reason, and a refused request changes nothing.** Nor does taking
back that finds nothing, and a level that is won ignores every movement. -/
theorem respond_of_objection (session : Session) (request : Request) :
    (session.respond request).1.error? = session.objection? request ∧
      (∀ error, (session.respond request).1.error? = some error →
        (session.respond request).2 = session) ∧
      (request.command? = some .undo → (session.respond request).1 = .told (.ok false) →
        (session.respond request).2 = session) ∧
      ∀ movement, request.command? = some (.move movement) → session.isComplete = true →
        session.respond request = (.told (.ok false), session) := by
  obtain ⟨herror, hkept⟩ := respond_heeds session request
  refine ⟨herror, fun error h ↦ hkept error (herror.symm.trans h), ?_, ?_⟩
  · intro hcommand hfalse
    rw [respond_of_command? hcommand (by simp)] at hfalse ⊢
    exact session_undo_of_false (Answer.told.inj hfalse)
  · intro movement hcommand hcomplete
    obtain ⟨hresult, hsession⟩ := move_of_isComplete hcomplete movement
    rw [respond_of_command? hcommand (by simp), obey, hresult, hsession]

/-- At the doorway there is nothing to take back at first and no second level to enter, and one step
to the right wins. -/
theorem respond_doorway : ∃ loaded won : Session,
    loaded = (start .standard).after [.load doorway] ∧
      won = loaded.after [.move (.toward .right)] ∧
      (loaded.respond .undo).1 = .told (.ok false) ∧ (loaded.respond .undo).2 = loaded ∧
      (loaded.respond (.loadLevel 1)).1.error? = some (.levelOutOfRange 1 1) ∧
      (loaded.respond (.loadLevel 1)).2 = loaded ∧
      won.isComplete = true ∧
      won.respond (.move (.toward .left)) = (.told (.ok false), won) := by
  have htest : (fun session : Session ↦
      (match session.undo.result with | .ok undone => !undone | .error _ => false) &&
        session.objection? (.loadLevel 1) == some (.levelOutOfRange 1 1) &&
        (session.after [.move (.toward .right)]).isComplete)
      ((start .standard).after [.load doorway]) = true := by
    decide +kernel
  generalize (start .standard).after [.load doorway] = loaded at htest ⊢
  simp only [Bool.and_eq_true, beq_iff_eq] at htest
  obtain ⟨⟨hundo, hlevel⟩, hwon⟩ := htest
  have hfalse : (loaded.respond .undo).1 = .told (.ok false) := by
    refine congrArg Answer.told ?_
    cases hresult : loaded.undo.result with
    | ok undone => simpa [hresult] using hundo
    | error error => simp [hresult] at hundo
  obtain ⟨-, -, hidle, -⟩ := respond_of_objection loaded .undo
  obtain ⟨herror, hkept, -, -⟩ := respond_of_objection loaded (.loadLevel 1)
  obtain ⟨-, -, -, hignored⟩ :=
    respond_of_objection (loaded.after [.move (.toward .right)]) (.move (.toward .left))
  exact ⟨loaded, _, rfl, rfl, hfalse, hidle rfl hfalse, herror.trans hlevel,
    hkept _ (herror.trans hlevel), hwon, hignored _ rfl hwon⟩

end Session

end TilePuzzle
