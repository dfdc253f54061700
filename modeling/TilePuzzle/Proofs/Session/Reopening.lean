import Mathlib.Data.List.Induction
import TilePuzzle.Proofs.Session.Consistent
import TilePuzzle.Proofs.Session.Refusal

/-!
# Won levels can be reopened

A level is won by the turn of a movement and by nothing else, and while it is won, a request either
leaves the session as it is or ends that. So a session in which a level is won is still the one that
the winning turn left, whatever was asked of it since.

## The winning turn

It is kept on the undo stack even if no rule fired in it, and when the stack is full an older turn
is forgotten. Unless the limit lets nothing be kept, the winning turn is therefore the next to be
taken back, and since the records of turns lead back to the boards before them, this gives the board
on which the winning movement was asked for.

## The induction

It is on the requests, with one more at the end. `Spares` is what every other request than the
winning one does: it changes nothing, or it leaves no level won.
-/

namespace TilePuzzle

/-! ## Turns that win -/

/-- A rule that orders a win matches on a board that the turn passes through. -/
def Game.MeetsWinRule (game : Game) (maxRewrites : Nat) (input : Option Movement)
    (board : Board) : Prop :=
  ∃ stage ∈ game.stages maxRewrites input board, ∃ met ∈ stage.boards,
    ∃ rule ∈ stage.group.rules, rule.commands.win = true ∧ ∃ origin, rule.MatchesAt met origin

/-- The turn is not cancelled, and a rule that orders a win matches or the board that the turn
leaves satisfies every win condition, of which there are some. -/
def Game.EarnsWin (game : Game) (maxRewrites : Nat) (input : Option Movement)
    (board : Board) : Prop :=
  (game.runTurn maxRewrites input board).cancelled = false ∧
    (game.MeetsWinRule maxRewrites input board ∨
      game.winConditions ≠ [] ∧ ∀ condition ∈ game.winConditions,
        condition.isSatisfied (game.runTurn maxRewrites input board).board = true)

theorem Game.isWon_iff {game : Game} {board : Board} : game.isWon board = true ↔
    game.winConditions ≠ [] ∧
      ∀ condition ∈ game.winConditions, condition.isSatisfied board = true := by
  simp [isWon, WinCondition.allSatisfied]

theorem Game.IsDefined.earnsWin {game : Game} (hgame : game.IsDefined) {board : Board}
    (hboard : board.Fits game) {maxRewrites : Nat} {input : Option Movement}
    (h : Play.wonAfter game (game.runTurn maxRewrites input board) = true) :
    game.EarnsWin maxRewrites input board := by
  rw [Play.wonAfter, Bool.and_eq_true, Bool.not_eq_true', Bool.or_eq_true] at h
  obtain ⟨hcancelled, hordered | hwon⟩ := h
  · have hfollows := follows_lastState hgame.isLayered hboard hcancelled
    rw [runTurn_of_not_cancelled hcancelled] at hordered
    obtain ⟨stage, hstage, hbefore, hafter⟩ := hfollows.exists_mem rfl hordered
    obtain ⟨hruns, hended⟩ := hfollows.runs stage hstage
    exact ⟨hcancelled, .inl ⟨stage, hstage,
      Stage.exists_matchesAt hruns hended hbefore hafter⟩⟩
  · exact ⟨hcancelled, .inr (isWon_iff.mp hwon)⟩

@[simp] theorem Play.won_start (limits : Limits) (game : Game) (index : Nat) (board : Board)
    (log : Log) :
    (Play.start limits game index board log).1.won = false := by
  rw [Play.start]
  split <;> rfl

namespace Session

variable {session : Session}

/-! ## What becomes of won levels -/

/-- After a request that did not win a level, no level is won unless the request changed nothing. -/
def Spares (session after : Session) : Prop :=
  after = session ∨ ∀ index, after.phase ≠ .levelWon index

theorem spares_of_not_won (session : Session) {after : Session} {game : Game} {play : Play}
    (hloaded : after.loaded = some ⟨game, some play⟩) (hwon : play.won = false) :
    session.Spares after := by
  refine .inr fun index h ↦ ?_
  rw [phase_of_loaded hloaded, hwon] at h
  cases h

theorem spares_enter (session : Session) (game : Game) (index : Nat) (log : Log) :
    session.Spares (session.enter game index log).session := by
  rw [enter]
  cases game.level? index with
  | none => exact .inl rfl
  | some board =>
    exact spares_of_not_won session rfl (Play.won_start session.limits game index board log)

theorem spares_openGame (session : Session) (game : Game) (log : Log) :
    session.Spares (session.openGame game log).session := by
  rw [openGame]
  split
  · exact .inr fun _ h ↦ by cases h
  · rcases spares_enter { session with loaded := some ⟨game, none⟩ } game 0 log with h | h
    · rw [h]
      exact .inr fun _ h ↦ by cases h
    · exact .inr h

theorem spares_undo (session : Session) : session.Spares session.undo.session := by
  rcases session.play?_cases with hnone | ⟨game, play, hloaded⟩
  · exact .inl (by simp [undo_of_play?_eq_none hnone])
  · rw [undo_of_loaded hloaded]
    split
    · exact .inl rfl
    · split
      · exact .inl rfl
      · exact spares_of_not_won session rfl rfl

theorem spares_restart (session : Session) : session.Spares session.restart.session := by
  rcases session.play?_cases with hnone | ⟨game, play, hloaded⟩
  · exact .inl (by simp [restart_of_play?_eq_none hnone])
  · rw [restart_of_loaded hloaded]
    split
    · exact .inl rfl
    · exact spares_enter session game play.index .empty

/-- The request makes a movement in a level that is not won yet, and this is what comes of it. -/
structure Moves (session : Session) (request : Request) (movement : Movement) (game : Game)
    (play : Play) : Prop where
  command?_eq : request.command? = some (.move movement)
  loaded_eq : session.loaded = some ⟨game, some play⟩
  won_eq : play.won = false
  respond_eq : (session.respond request).2 = session.withPlay game
    (play.next game (game.runTurn session.limits.maxRewrites (some movement) play.board))

theorem spares_move (session : Session) {request : Request} {movement : Movement}
    (h : request.command? = some (.move movement)) :
    session.Spares (session.respond request).2 ∨
      ∃ game play, session.Moves request movement game play := by
  have hrespond : (session.respond request).2 = (session.move movement).session :=
    congrArg Prod.snd (respond_of_command? h (by simp))
  rw [hrespond]
  rcases session.play?_cases with hnone | ⟨game, play, hloaded⟩
  · exact .inl (.inl (by simp [move_of_play?_eq_none hnone]))
  · rw [move_of_loaded hloaded]
    cases hwon : play.won with
    | true => exact .inl (.inl rfl)
    | false =>
      refine .inr ⟨game, play, h, hloaded, hwon, hrespond.trans ?_⟩
      simp [move_of_loaded hloaded, hwon]

/-- **Only movements win.** A request makes a movement in a level that is not won, or it leaves the
session as it is, or no level is won afterwards. -/
theorem spares_respond (session : Session) (request : Request) :
    session.Spares (session.respond request).2 ∨
      ∃ movement game play, session.Moves request movement game play := by
  cases request with
  | load source =>
    refine .inl ?_
    rw [respond.eq_def]
    dsimp only
    cases hload : session.load source with
    | error failure => exact .inl rfl
    | ok reply =>
      rw [load] at hload
      split at hload
      · cases hload
        exact spares_openGame ..
      · cases hload
        exact .inl rfl
      · cases hload
  | openGame game => exact .inl (spares_openGame session game.val .empty)
  | loadLevel index =>
    refine .inl ?_
    rw [respond, loadLevel]
    split
    · exact .inl rfl
    · exact spares_enter ..
  | restart => exact .inl (spares_restart session)
  | move movement =>
    have hcommand : (Request.move movement).command? = some (.move movement) := rfl
    exact (session.spares_move hcommand).imp_right fun h ↦ ⟨movement, h⟩
  | send text =>
    cases hword : Command.ofWord? (Text.trim text) with
    | none =>
      refine .inl ?_
      rw [respond, send, hword]
      exact .inl rfl
    | some command =>
      cases command with
      | move movement =>
        have hcommand : (Request.send text).command? = some (.move movement) := hword
        exact (session.spares_move hcommand).imp_right fun h ↦ ⟨movement, h⟩
      | undo =>
        refine .inl ?_
        rw [respond, send, hword]
        exact spares_undo session
      | restart =>
        refine .inl ?_
        rw [respond, send, hword]
        exact spares_restart session
  | undo => exact .inl (spares_undo session)

/-! ## The request that won -/

/-- The request makes a movement in a level that is being played, and its turn earns a win. -/
structure Wins (session : Session) (request : Request) (index : Nat) : Prop where
  phase_eq : session.phase = .levelLoaded index
  earned : ∃ movement game board, request.command? = some (.move movement) ∧
    session.game? = some game ∧ session.board? = some board ∧
      game.EarnsWin session.limits.maxRewrites (some movement) board

section Moves

variable {limits : Limits} {request : Request} {movement : Movement} {game : Game} {play : Play}
  {index : Nat}

/-- A movement after which a level is won was made in this level, and its turn has won it. -/
theorem Moves.of_phase_eq (h : session.Moves request movement game play)
    (hphase : (session.respond request).2.phase = .levelWon index) : play.index = index ∧
      Play.wonAfter game
        (game.runTurn session.limits.maxRewrites (some movement) play.board) = true := by
  rw [h.respond_eq, phase_withPlay] at hphase
  split at hphase
  · next hwon => exact ⟨Phase.levelWon.inj hphase, hwon⟩
  · cases hphase

theorem Sound.wins (hsound : session.Sound limits) (h : session.Moves request movement game play)
    (hphase : (session.respond request).2.phase = .levelWon index) :
    session.Wins request index := by
  obtain ⟨rfl, hwon⟩ := h.of_phase_eq hphase
  have hgame := hsound.isDefined_of_loaded h.loaded_eq
  have hboard := (hsound.play game play h.loaded_eq).fits
  refine ⟨?_, movement, game, play.board, h.command?_eq, ?_, ?_, hgame.earnsWin hboard hwon⟩
  · rw [phase_of_loaded h.loaded_eq, h.won_eq]
    rfl
  · exact game?_of_loaded h.loaded_eq
  · exact board?_of_loaded h.loaded_eq

/-- **The turn that won is the next to be taken back**, and that gives the board before it. -/
theorem Sound.undo_of_moves (hsound : session.Sound limits) (hlimit : limits.undoLimit ≠ some 0)
    (h : session.Moves request movement game play)
    (hphase : (session.respond request).2.phase = .levelWon index) :
    1 ≤ (session.respond request).2.undoDepth ∧ (game.settings.noUndo = false →
      (session.respond request).2.undo.result = .ok true ∧
        (session.respond request).2.undo.session.phase = .levelLoaded index ∧
        (session.respond request).2.undo.session.board? = session.board?) := by
  obtain ⟨rfl, hwon⟩ := h.of_phase_eq hphase
  have hgame := (hsound.isDefined_of_loaded h.loaded_eq).isLayered
  have hplay := hsound.play game play h.loaded_eq
  have hrevert := Game.revert_board_runTurn hgame hplay.fits hplay.isStill
    session.limits.maxRewrites (some movement)
  rw [h.respond_eq]
  generalize game.runTurn session.limits.maxRewrites (some movement) play.board = turn at *
  have hstack : (play.next game turn).undoStack = play.undoStack.push turn.record true := by
    rw [Play.next, hwon]
  have hcounts : turn.record.Counts true := .inr rfl
  have hpop := UndoStack.pop?_push hcounts (hplay.limit_eq ▸ hlimit)
  rw [← hstack] at hpop
  refine ⟨?_, fun hnoUndo ↦ ?_⟩
  · rw [undoDepth_withPlay, UndoStack.depth_of_pop? hpop]
    exact Nat.le_add_left 1 _
  · rw [undo_of_loaded (session.loaded_withPlay game _), hnoUndo, hpop]
    simpa [board?_of_loaded h.loaded_eq, Play.next] using congrArg Prod.fst hrevert

end Moves

theorem after_append (session : Session) (requests requests' : List Request) :
    session.after (requests ++ requests') = (session.after requests).after requests' :=
  List.foldl_append

/-- **A won level stays as the winning turn left it.** Some request made the movement that won it,
and all requests since then have left the session as it was. -/
theorem exists_moves_of_phase_eq (limits : Limits) (requests : List Request) {index : Nat}
    (h : ((start limits).after requests).phase = .levelWon index) :
    ∃ earlier request later movement game play, requests = earlier ++ request :: later ∧
      ((start limits).after earlier).Moves request movement game play ∧
      ∀ part, part <+: later → (start limits).after (earlier ++ request :: part) =
        (start limits).after requests := by
  induction requests using List.reverseRecOn with
  | nil => cases h
  | append_singleton requests latest ih =>
    have hlatest : (start limits).after (requests ++ [latest]) =
        (((start limits).after requests).respond latest).2 := after_append ..
    rcases spares_respond ((start limits).after requests) latest with (hsame | hnone) | hmoves
    · rw [hlatest, hsame] at h ⊢
      obtain ⟨earlier, request, later, movement, game, play, rfl, hmoves, hkept⟩ := ih h
      refine ⟨earlier, request, later ++ [latest], movement, game, play, ?_, hmoves, ?_⟩
      · rw [List.append_assoc, List.cons_append]
      · intro part hpart
        rcases List.prefix_concat_iff.mp hpart with rfl | hpart
        · rw [← hsame, ← hlatest, List.append_assoc, List.cons_append]
        · exact hkept part hpart
    · rw [hlatest] at h
      exact absurd h (hnone index)
    · obtain ⟨movement, game, play, hmoves⟩ := hmoves
      refine ⟨requests, latest, [], movement, game, play, rfl, hmoves, fun part hpart ↦ ?_⟩
      rw [List.prefix_nil.mp hpart]

/-- **A won level can be reopened.** Let a level be won after some requests, and let turns be kept.
Then a turn can be undone; one of the requests won the level, and nothing has changed since; and if
the game allows it, undoing reopens the level with just the board on which that request was made.

No request makes a level won but a movement in this very level whose turn earns it. -/
theorem reopens_after (limits : Limits) (requests : List Request) (index : Nat) :
    (((start limits).after requests).phase = .levelWon index → limits.undoLimit ≠ some 0 →
      1 ≤ ((start limits).after requests).undoDepth ∧
        ∃ earlier request later, requests = earlier ++ request :: later ∧
          ((start limits).after earlier).Wins request index ∧
          (∀ part, part <+: later → (start limits).after (earlier ++ request :: part) =
            (start limits).after requests) ∧
          ∀ game, ((start limits).after requests).game? = some game →
            game.settings.noUndo = false →
              ((start limits).after requests).undo.result = .ok true ∧
              ((start limits).after requests).undo.session.phase = .levelLoaded index ∧
              ((start limits).after requests).undo.session.board? =
                ((start limits).after earlier).board?) ∧
      ∀ request, ((start limits).after requests).phase ≠ .levelWon index →
        (((start limits).after requests).respond request).2.phase = .levelWon index →
          ((start limits).after requests).Wins request index := by
  constructor
  · intro hphase hlimit
    obtain ⟨earlier, request, later, movement, game, play, hrequests, hmoves, hkept⟩ :=
      exists_moves_of_phase_eq limits requests hphase
    have hsound := sound_after limits earlier
    have hwon : (start limits).after requests =
        (((start limits).after earlier).respond request).2 := by
      rw [← hkept [] List.nil_prefix]
      exact after_append ..
    rw [hwon] at hphase ⊢
    obtain ⟨hdepth, hundo⟩ := hsound.undo_of_moves hlimit hmoves hphase
    refine ⟨hdepth, earlier, request, later, hrequests, hsound.wins hmoves hphase, hwon ▸ hkept, ?_⟩
    intro found hfound
    rw [hmoves.respond_eq] at hfound
    obtain rfl : game = found := Option.some.inj hfound
    exact hundo
  · intro request hphase hwon
    rcases spares_respond ((start limits).after requests) request with (hsame | hnone) | hmoves
    · exact absurd (hsame ▸ hwon) hphase
    · exact absurd hwon (hnone index)
    · obtain ⟨movement, game, play, hmoves⟩ := hmoves
      exact (sound_after limits requests).wins hmoves hwon

/-- At the doorway, one step to the right wins. The step back is ignored, and the level can still be
reopened. -/
theorem reopens_doorway : ∃ loaded won : Session,
    loaded = (start .standard).after [.load doorway] ∧
      won = loaded.after [.move (.toward .right), .move (.toward .left)] ∧
      loaded.phase = .levelLoaded 0 ∧ loaded.Wins (.move (.toward .right)) 0 ∧
      won.phase = .levelWon 0 ∧ 1 ≤ won.undoDepth ∧ won.undo.result = .ok true ∧
      won.undo.session.phase = .levelLoaded 0 := by
  have htest : (fun loaded : Session ↦
      let won := loaded.after [.move (.toward .right), .move (.toward .left)]
      decide (loaded.phase = .levelLoaded 0 ∧
        (loaded.respond (.move (.toward .right))).2.phase = .levelWon 0 ∧
        won.phase = .levelWon 0) && won.game?.any fun game ↦ !game.settings.noUndo)
      ((start .standard).after [.load doorway]) = true := by
    decide +kernel
  have hwon := after_append (start .standard) [.load doorway]
    [.move (.toward .right), .move (.toward .left)]
  obtain ⟨-, honly⟩ := reopens_after .standard [.load doorway] 0
  obtain ⟨hreopens, -⟩ := reopens_after .standard
    ([.load doorway] ++ [.move (.toward .right), .move (.toward .left)]) 0
  rw [hwon] at hreopens
  generalize (start .standard).after [.load doorway] = loaded at htest hreopens honly ⊢
  dsimp only at htest
  rw [Bool.and_eq_true, decide_eq_true_eq, Option.any_eq_true] at htest
  obtain ⟨⟨hloaded, hfirst, hphase⟩, game, hgame, hnoUndo⟩ := htest
  obtain ⟨hdepth, earlier, request, later, -, -, -, hundo⟩ := hreopens hphase (by decide)
  obtain ⟨hresult, hreopened, -⟩ := hundo game hgame (by simpa using hnoUndo)
  exact ⟨loaded, _, rfl, rfl, hloaded, honly _ (by rw [hloaded]; simp) hfirst, hphase, hdepth,
    hresult, hreopened⟩

end Session

end TilePuzzle
