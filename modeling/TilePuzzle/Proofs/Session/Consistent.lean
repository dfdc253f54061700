import TilePuzzle.Proofs.Revert
import TilePuzzle.Proofs.Session.Requests
import TilePuzzle.Proofs.Turn
import TilePuzzle.Proofs.UndoStack

/-!
# Sessions stay consistent

What a session shows of itself — its phase, its board, the turns that can be undone and the record
of the latest turn — always belongs together.

## The invariant

It is about the level being played (`Play.Sound`): its board fits the game, is still and has the
shape of the level as it starts, the undo stack keeps to its limit, and the latest record speaks of
cells of the board and objects of the game.

## The operations

The invariant is proved of each operation by itself; a turn keeps it by the laws of turns, and
taking back keeps it whatever is taken back. What the session shows is then read off the invariant,
without another look at the operations.
-/

namespace TilePuzzle

/-! ## Levels being played -/

/-- Every cell that some subturns change lies on the board, and every object is one of the game. -/
def Board.Bears (game : Game) (board : Board) (subturns : List Subturn) : Prop :=
  ∀ subturn ∈ subturns, ∀ firing ∈ subturn.firings, ∀ cell ∈ firing.cells,
    board.contains cell.position = true ∧
      ∀ change ∈ cell.changes, ∃ template, game.template? change.object = some template

theorem Board.bears_runTurn {game : Game} (hgame : game.IsLayered) {board : Board}
    (hboard : board.Fits game) (maxRewrites : Nat) (input : Option Movement) :
    (game.runTurn maxRewrites input board).board.Bears game
      (game.runTurn maxRewrites input board).record.subturns := by
  intro subturn hsubturn firing hfiring cell hcell
  obtain ⟨hposition, hobjects⟩ :=
    Game.mem_cells_runTurn hgame hboard hsubturn hfiring hcell
  refine ⟨?_, fun change hchange ↦ ?_⟩
  · rw [(Game.sameShape_runTurn hgame hboard).contains]
    exact hposition
  · obtain ⟨layer, hlayer⟩ := hobjects change hchange
    obtain ⟨template, htemplate, -⟩ := Game.template?_of_layer? hlayer
    exact ⟨template, htemplate⟩

theorem Board.bears_nil (game : Game) (board : Board) : board.Bears game [] :=
  fun _ h ↦ absurd h List.not_mem_nil

/-- The board, the undo stack and the latest record of a level being played are in order. -/
structure Play.Sound (limits : Limits) (game : Game) (play : Play) : Prop where
  sameShape : ∃ level, game.level? play.index = some level ∧ level.SameShape play.board
  fits : play.board.Fits game
  isStill : play.board.IsStill
  limit_eq : play.undoStack.limit = limits.undoLimit
  depth_le : ∀ limit, limits.undoLimit = some limit → play.undoStack.depth ≤ limit
  bears : play.board.Bears game play.subturns

namespace Play

variable {limits : Limits} {game : Game} {play : Play}

theorem sound_start (hgame : game.IsDefined) {index : Nat} {board : Board}
    (hlevel : game.level? index = some board) (limits : Limits) (log : Log) :
    (Play.start limits game index board log).1.Sound limits game := by
  obtain ⟨-, hfits, hstill⟩ := hgame.isClosed.levels index board hlevel
  rw [Play.start]
  split
  · exact ⟨⟨board, hlevel, Game.sameShape_runTurn hgame.isLayered hfits⟩,
      Game.fits_runTurn hgame.isLayered hfits, Game.isStill_runTurn hgame.isLayered hfits, rfl,
      fun _ _ ↦ Nat.zero_le _, Board.bears_runTurn hgame.isLayered hfits _ _⟩
  · exact ⟨⟨board, hlevel, .refl board⟩, hfits, hstill, rfl, fun _ _ ↦ Nat.zero_le _,
      Board.bears_nil game board⟩

theorem Sound.next (h : play.Sound limits game) (hgame : game.IsDefined) (maxRewrites : Nat)
    (input : Option Movement) :
    (play.next game (game.runTurn maxRewrites input play.board)).Sound limits game where
  sameShape := by
    obtain ⟨level, hlevel, hshape⟩ := h.sameShape
    exact ⟨level, hlevel, hshape.trans (Game.sameShape_runTurn hgame.isLayered h.fits)⟩
  fits := Game.fits_runTurn hgame.isLayered h.fits
  isStill := Game.isStill_runTurn hgame.isLayered h.fits
  limit_eq := (UndoStack.limit_push _ _ _).trans h.limit_eq
  depth_le limit hlimit :=
    UndoStack.depth_push_le (h.limit_eq.trans hlimit) (h.depth_le limit hlimit) _ _
  bears := Board.bears_runTurn hgame.isLayered h.fits maxRewrites input

theorem Sound.revert (h : play.Sound limits game) {record : TurnRecord} {undoStack : UndoStack}
    (hpop : play.undoStack.pop? = some (record, undoStack)) (won : Bool) :
    Sound limits game
      ⟨play.index, (play.board.revert game record.subturns).1, won, undoStack, []⟩ where
  sameShape := by
    obtain ⟨level, hlevel, hshape⟩ := h.sameShape
    exact ⟨level, hlevel, hshape.trans (Board.sameShape_revert game record.subturns play.board)⟩
  fits := h.fits.revert record.subturns
  isStill := Board.isStill_revert game record.subturns play.board
  limit_eq := (UndoStack.pop?_eq_some hpop).1.trans h.limit_eq
  depth_le limit hlimit := by
    have hdepth := h.depth_le limit hlimit
    rw [UndoStack.depth_of_pop? hpop] at hdepth
    exact Nat.le_of_succ_le hdepth
  bears := Board.bears_nil game _

end Play

/-! ## Sessions -/

namespace Session

/-- The game is one that a document defines, and the level being played is in order. -/
structure Sound (limits : Limits) (session : Session) : Prop where
  limits_eq : session.limits = limits
  isDefined : ∀ game, session.game? = some game → game.IsDefined
  play : ∀ game play, session.loaded = some ⟨game, some play⟩ → play.Sound limits game

variable {limits : Limits} {session : Session}

theorem sound_start (limits : Limits) : (start limits).Sound limits where
  limits_eq := rfl
  isDefined _ h := by cases h
  play _ _ h := by cases h

theorem Sound.withPlay (h : session.Sound limits) {game : Game} (hgame : game.IsDefined)
    {play : Play} (hplay : play.Sound limits game) : (session.withPlay game play).Sound limits where
  limits_eq := h.limits_eq
  isDefined _ hsome := by cases hsome; exact hgame
  play _ _ hsome := by cases hsome; exact hplay

theorem Sound.enter (h : session.Sound limits) {game : Game} (hgame : game.IsDefined)
    (index : Nat) (log : Log) : (session.enter game index log).session.Sound limits := by
  rw [Session.enter]
  cases hlevel : game.level? index with
  | none => exact h
  | some board =>
    have hstart := Play.sound_start hgame hlevel limits log
    rw [← h.limits_eq] at hstart
    exact h.withPlay hgame (h.limits_eq ▸ hstart)

theorem Sound.isDefined_of_loaded (h : session.Sound limits) {loaded : Loaded}
    (hloaded : session.loaded = some loaded) : loaded.game.IsDefined :=
  h.isDefined loaded.game (congrArg (Option.map Loaded.game) hloaded)

/-- **No operation puts a session out of order.** -/
theorem outlasts_sound (limits : Limits) : Outlasts (Sound limits) where
  openGame session game log h hgame := by
    have hempty : Sound limits { session with loaded := some ⟨game, none⟩ } :=
      ⟨h.limits_eq, fun _ hsome ↦ by cases hsome; exact hgame, fun _ _ hsome ↦ by cases hsome⟩
    rw [Session.openGame]
    split
    · exact hempty
    · exact hempty.enter hgame 0 log
  loadLevel session index h := by
    rw [Session.loadLevel]
    split
    · exact h
    · next loaded hloaded => exact h.enter (h.isDefined_of_loaded hloaded) index .empty
  restart session h := by
    rcases session.play?_cases with hnone | ⟨game, play, hloaded⟩
    · rwa [restart_of_play?_eq_none hnone]
    · rw [restart_of_loaded hloaded]
      split
      · exact h
      · exact h.enter (h.isDefined_of_loaded hloaded) play.index .empty
  move session movement h := by
    rcases session.play?_cases with hnone | ⟨game, play, hloaded⟩
    · rwa [move_of_play?_eq_none hnone]
    · rw [move_of_loaded hloaded]
      split
      · exact h
      · have hgame := h.isDefined_of_loaded hloaded
        exact h.withPlay hgame ((h.play game play hloaded).next hgame _ _)
  undo session h := by
    rcases session.play?_cases with hnone | ⟨game, play, hloaded⟩
    · rwa [undo_of_play?_eq_none hnone]
    · rw [undo_of_loaded hloaded]
      split
      · exact h
      · cases hpop : play.undoStack.pop? with
        | none => exact h
        | some popped =>
          exact h.withPlay (h.isDefined_of_loaded hloaded)
            ((h.play game play hloaded).revert hpop false)

theorem sound_after (limits : Limits) (requests : List Request) :
    ((start limits).after requests).Sound limits :=
  (outlasts_sound limits).after (sound_start limits) requests

/-! ## What a session shows of itself -/

/-- What a session shows of itself belongs together. -/
structure Consistent (session : Session) : Prop where
  uninitialized_iff : session.phase = .uninitialized ↔ session.board? = none
  uninitialized : session.phase = .uninitialized → session.undoDepth = 0 ∧ session.subturns = []
  /-- A level is played on a board of its shape, with as many slots in each cell. -/
  playing : ∀ index, session.phase = .levelLoaded index ∨ session.phase = .levelWon index →
    ∃ game board level, session.game? = some game ∧ session.board? = some board ∧
      index < session.levelCount ∧ game.level? index = some level ∧ board.index = index ∧
      board.width = level.width ∧ board.height = level.height ∧
      board.cells.map (fun cell ↦ cell.slots.length) =
        level.cells.map (fun cell ↦ cell.slots.length)
  fits : ∀ game board, session.game? = some game → session.board? = some board → board.Fits game
  isStill : ∀ board, session.board? = some board → board.IsStill
  bears : ∀ game board, session.game? = some game → session.board? = some board →
    board.Bears game session.subturns
  undoDepth_le : ∀ limit, session.limits.undoLimit = some limit → session.undoDepth ≤ limit

theorem consistent_of_play?_eq_none (h : session.play? = none) : session.Consistent := by
  constructor <;> simp [phase, board?, undoDepth, subturns, h]

theorem phase_withPlay_ne (session : Session) (game : Game) (play : Play) :
    (session.withPlay game play).phase ≠ .uninitialized := by
  rw [phase_withPlay]
  split <;> exact Phase.noConfusion

theorem eq_index_of_phase_withPlay {game : Game} {play : Play} {index : Nat}
    (h : (session.withPlay game play).phase = .levelLoaded index ∨
      (session.withPlay game play).phase = .levelWon index) : index = play.index := by
  rw [phase_withPlay] at h
  split at h
  · simpa [eq_comm] using h
  · simpa [eq_comm] using h

theorem consistent_withPlay (session : Session) {game : Game} (hgame : game.IsDefined) {play : Play}
    (h : play.Sound session.limits game) : (session.withPlay game play).Consistent := by
  obtain ⟨level, hlevel, hshape⟩ := h.sameShape
  obtain ⟨hindex, hfits, -⟩ := hgame.isClosed.levels play.index level hlevel
  have hphase := session.phase_withPlay_ne game play
  constructor
  case uninitialized_iff => simp only [hphase, board?_withPlay, reduceCtorEq]
  case uninitialized => exact fun hnone ↦ absurd hnone hphase
  case playing =>
    intro index hplaying
    obtain rfl := eq_index_of_phase_withPlay hplaying
    refine ⟨game, play.board, level, game?_withPlay .., board?_withPlay .., ?_, hlevel,
      hshape.index.trans hindex, hshape.width, hshape.height, ?_⟩
    · rw [levelCount, game?_withPlay]
      exact (Array.getElem?_eq_some_iff.mp hlevel).1
    · rw [h.fits.map_length_slots, hfits.map_length_slots, hshape.width, hshape.height]
  case fits => simpa using h.fits
  case isStill => simpa using h.isStill
  case bears => simpa using h.bears
  case undoDepth_le => simpa using h.depth_le

theorem Sound.consistent (h : session.Sound limits) : session.Consistent := by
  rcases session.play?_cases with hnone | ⟨game, play, hloaded⟩
  · exact consistent_of_play?_eq_none hnone
  · rw [eq_withPlay hloaded]
    exact session.consistent_withPlay (h.isDefined_of_loaded hloaded)
      (h.limits_eq ▸ h.play game play hloaded)

/-- **A session is consistent at any time**, whatever was asked of it. -/
theorem consistent_after (limits : Limits) (requests : List Request) :
    ((start limits).after requests).limits = limits ∧
      ((start limits).after requests).Consistent :=
  have h := sound_after limits requests
  ⟨h.limits_eq, h.consistent⟩

end Session

end TilePuzzle
