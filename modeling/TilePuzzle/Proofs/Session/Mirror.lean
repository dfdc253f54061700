import TilePuzzle.Proofs.Session.Consistent
import TilePuzzle.Proofs.Session.Copying

/-!
# Records are as good as copies

A session and a copying session that are asked the same things cannot be told apart: they give the
same answers and show the same boards, phases and undo depths.

## The relation

The two are related step by step (`Session.Mirrors`). While a level is played, taking back the
records on the undo stack one after the other leads through the very boards that were copied, and no
violation is met on the way (`Retraces`). Phase, level and game are simply the same.

## The steps

A turn that is kept puts its record on the one stack and the board before it on the other, and the
record leads back to that board. To take a turn back takes one off both. All other operations empty
both stacks or leave them as they are.
-/

namespace TilePuzzle

/-! ## Records that retrace copies -/

/-- Taking back records, the latest first, leads from a board through copied boards. -/
inductive Retraces (game : Game) : Board → List TurnRecord → List Board → Prop
  | nil (board : Board) : Retraces game board [] []
  | cons {board copy : Board} {record : TurnRecord} {records : List TurnRecord}
      {copies : List Board} (hrevert : board.revert game record.subturns = (copy, []))
      (hrest : Retraces game copy records copies) :
      Retraces game board (record :: records) (copy :: copies)

namespace Retraces

variable {game : Game} {board : Board} {records : List TurnRecord} {copies : List Board}

theorem length_eq (h : Retraces game board records copies) : copies.length = records.length := by
  induction h with
  | nil => rfl
  | cons _ _ ih => rw [List.length_cons, List.length_cons, ih]

/-- The latest record is taken back without a violation. -/
theorem violations_revert {record : TurnRecord}
    (h : Retraces game board (record :: records) copies) :
    (board.revert game record.subturns).2 = [] := by
  cases h with
  | cons hrevert _ => rw [hrevert]

theorem take (h : Retraces game board records copies) (n : Nat) :
    Retraces game board (records.take n) (copies.take n) := by
  induction h generalizing n with
  | nil => simpa using Retraces.nil _
  | cons hrevert _ ih =>
    cases n with
    | zero => exact .nil _
    | succ n => exact .cons hrevert (ih n)

/-- The record and the copy of one more turn are kept together. -/
theorem keep {stack : UndoStack} (h : Retraces game board stack.records copies)
    (hlimit : stack.limit ≠ some 0) {record : TurnRecord} {next : Board}
    (hrevert : next.revert game record.subturns = (board, [])) :
    Retraces game next (record :: stack.retained) (CopyPlay.keep stack.limit board copies) := by
  rw [UndoStack.retained, CopyPlay.keep.eq_def]
  cases hbound : stack.limit with
  | none => exact .cons hrevert h
  | some limit =>
    cases limit with
    | zero => exact absurd hbound hlimit
    | succ limit => exact .cons hrevert (h.take limit)

theorem push {stack : UndoStack} (h : Retraces game board stack.records copies)
    {record : TurnRecord} {next : Board} (hrevert : next.revert game record.subturns = (board, []))
    (hempty : record.isEmpty = true → next = board)
    (hzero : stack.limit = some 0 → stack.records = []) (won : Bool) :
    Retraces game next (stack.push record won).records
      (if (!record.isEmpty || won) && stack.limit != some 0 then
        CopyPlay.keep stack.limit board copies
      else copies) := by
  -- a copy is kept just when the record is
  have hkept : ((!record.isEmpty || won) && stack.limit != some 0) =
      !((record.isEmpty && !won) || stack.limit == some 0) := by
    simp [bne]
  rw [UndoStack.push, hkept]
  cases hskip : (record.isEmpty && !won) || stack.limit == some 0 with
  | false =>
    have hlimit : stack.limit ≠ some 0 := fun hlimit ↦ by
      rw [hlimit, Bool.or_eq_false_iff] at hskip
      exact absurd hskip.2 (by decide)
    exact h.keep hlimit hrevert
  | true =>
    change Retraces game next stack.records copies
    rcases Bool.or_eq_true_iff.mp hskip with hnothing | hlimit
    · rw [hempty (Bool.and_eq_true_iff.mp hnothing).1]
      exact h
    · rw [hzero (beq_iff_eq.mp hlimit)] at h ⊢
      cases h
      exact .nil next

end Retraces

/-! ## Levels being played -/

/-- A copying session plays the same level, and its copies are what the records lead back to. -/
structure Play.Mirrors (game : Game) (play : Play) (copy : CopyPlay) : Prop where
  index_eq : copy.index = play.index
  board_eq : copy.board = play.board
  won_eq : copy.won = play.won
  retraces : Retraces game play.board play.undoStack.records copy.copies

namespace Play

variable {limits : Limits} {game : Game} {play : Play} {copy : CopyPlay}

theorem mirrors_start (hgame : game.IsDefined) {index : Nat} {board : Board}
    (hlevel : game.level? index = some board) (limits : Limits) (log : Log) :
    (Play.start limits game index board log).1.Mirrors game
      (CopyPlay.start limits game index board) := by
  obtain ⟨-, hfits, hstill⟩ := hgame.isClosed.levels index board hlevel
  rw [Play.start, CopyPlay.start]
  cases hstart : game.settings.rulesOnLevelStart with
  | false => exact ⟨rfl, rfl, rfl, .nil board⟩
  | true =>
    cases hcancelled : (game.runTurn limits.maxRewrites none board).cancelled with
    | false => exact ⟨rfl, rfl, rfl, .nil _⟩
    | true =>
      have hboard : board = (game.runTurn limits.maxRewrites none board).board := by
        rw [Game.runTurn_of_cancelled hgame.isLayered hfits hcancelled,
          Board.settle_eq_self hstill]
      exact ⟨rfl, hboard, rfl, .nil _⟩

/-- The stack of a session that keeps no turns is empty. -/
theorem Sound.records_eq_nil (h : play.Sound limits game)
    (hlimit : play.undoStack.limit = some 0) : play.undoStack.records = [] := by
  have hdepth := h.depth_le 0 (h.limit_eq.symm.trans hlimit)
  exact List.length_eq_zero_iff.mp (Nat.le_zero.mp hdepth)

/-- **A turn keeps both in step**, and both tell alike whether a rule fired. -/
theorem Mirrors.move (h : play.Mirrors game copy) (hsound : play.Sound limits game)
    (hgame : game.IsDefined) (hwon : play.won = false) (movement : Movement) :
    (play.next game (game.runTurn limits.maxRewrites (some movement) play.board)).Mirrors game
        (copy.move limits game movement).1 ∧
      (copy.move limits game movement).2 =
        !(game.runTurn limits.maxRewrites (some movement) play.board).record.isEmpty := by
  have hrevert := Game.revert_board_runTurn hgame.isLayered hsound.fits hsound.isStill
    limits.maxRewrites (some movement)
  have hempty := Game.board_runTurn_of_isEmpty hgame.isLayered hsound.fits hsound.isStill
    limits.maxRewrites (some movement)
  have hcancel := game.isEmpty_record_of_cancelled limits.maxRewrites (some movement) play.board
  rw [CopyPlay.move, h.board_eq]
  generalize game.runTurn limits.maxRewrites (some movement) play.board = turn at *
  cases hcancelled : turn.cancelled with
  | false =>
    have hnext : wonAfter game turn = (turn.winRequested || game.isWon turn.board) := by
      rw [wonAfter, hcancelled]
      rfl
    have hpush := h.retraces.push hrevert hempty hsound.records_eq_nil (wonAfter game turn)
    rw [hsound.limit_eq, hnext] at hpush
    exact ⟨⟨h.index_eq, rfl, hnext.symm, hnext ▸ hpush⟩, rfl⟩
  | true =>
    -- neither side changes, as nothing was recorded
    have hrecord := hcancel hcancelled
    have hboard := hempty hrecord
    have hnext : wonAfter game turn = false := by
      rw [wonAfter, hcancelled]
      rfl
    refine ⟨⟨h.index_eq, h.board_eq.trans hboard.symm, ?_, ?_⟩, ?_⟩
    · exact (h.won_eq.trans hwon).trans hnext.symm
    · rw [next, hnext, play.undoStack.push_of_isEmpty hrecord, hboard]
      exact h.retraces
    · rw [hrecord]
      rfl

end Play

/-! ## Sessions -/

/-- Both kinds of session have the same game and play the same level. -/
inductive Loaded.Mirrors : Option Loaded → Option (Game × Option CopyPlay) → Prop
  | nothing : Mirrors none none
  | idle (game : Game) : Mirrors (some ⟨game, none⟩) (some (game, none))
  | playing {game : Game} {play : Play} {copy : CopyPlay} (h : play.Mirrors game copy) :
      Mirrors (some ⟨game, some play⟩) (some (game, some copy))

/-- A copying session stands where the session stands. -/
structure Session.Mirrors (session : Session) (copy : CopySession) : Prop where
  limits_eq : copy.limits = session.limits
  loaded : Loaded.Mirrors session.loaded copy.loaded

/-- Both kinds of session give the same answer and stand alike afterwards. -/
structure Reply.Mirrors {α : Type} (reply : Reply α)
    (copy : Except SessionError α × CopySession) : Prop where
  result_eq : copy.1 = reply.result
  session : reply.session.Mirrors copy.2

namespace Session

variable {limits : Limits} {session : Session} {copy : CopySession} {game : Game}

theorem Mirrors.sight_eq (h : session.Mirrors copy) : copy.sight = session.sight := by
  obtain ⟨-, hloaded⟩ := h
  obtain ⟨limits, loaded⟩ := session
  obtain ⟨limits', loaded'⟩ := copy
  cases hloaded with
  | nothing => rfl
  | idle game => rfl
  | playing hplay =>
    obtain ⟨hindex, hboard, hwon, hretraces⟩ := hplay
    simp [CopySession.sight, CopySession.play?, CopySession.phase, sight, board?, play?, phase,
      undoDepth, UndoStack.depth, hindex, hboard, hwon, hretraces.length_eq]

theorem Mirrors.withPlay (h : session.Mirrors copy) {play : Play} {copyPlay : CopyPlay}
    (hplay : play.Mirrors game copyPlay) :
    (session.withPlay game play).Mirrors (copy.withPlay game copyPlay) :=
  ⟨h.limits_eq, .playing hplay⟩

theorem Mirrors.enter (h : session.Mirrors copy) (hgame : game.IsDefined) (index : Nat)
    (log : Log) :
    (session.enter game index log).Mirrors (copy.enter game index) := by
  rw [Session.enter, CopySession.enter, h.limits_eq]
  cases hlevel : game.level? index with
  | none => exact ⟨rfl, h⟩
  | some board => exact ⟨rfl, h.withPlay (Play.mirrors_start hgame hlevel session.limits log)⟩

theorem Mirrors.openGame (h : session.Mirrors copy) (hgame : game.IsDefined) (log : Log) :
    (session.openGame game log).Mirrors (copy.openGame game) := by
  have hidle : Mirrors { session with loaded := some ⟨game, none⟩ }
      { copy with loaded := some (game, none) } := ⟨h.limits_eq, .idle game⟩
  rw [Session.openGame, CopySession.openGame]
  split
  · exact ⟨rfl, hidle⟩
  · exact hidle.enter hgame 0 log

theorem Mirrors.cases_play (h : session.Mirrors copy) :
    (session.play? = none ∧ copy.play? = none) ∨
      ∃ game play copyPlay, session.loaded = some ⟨game, some play⟩ ∧
        copy.loaded = some (game, some copyPlay) ∧ play.Mirrors game copyPlay := by
  obtain ⟨-, hloaded⟩ := h
  rw [play?, CopySession.play?]
  generalize session.loaded = loaded at *
  generalize copy.loaded = loaded' at *
  cases hloaded with
  | nothing => exact .inl ⟨rfl, rfl⟩
  | idle game => exact .inl ⟨rfl, rfl⟩
  | playing hplay => exact .inr ⟨_, _, _, rfl, rfl, hplay⟩

theorem Mirrors.loadLevel (h : session.Mirrors copy) (hsound : session.Sound limits) (index : Nat) :
    (session.loadLevel index).Mirrors (copy.loadLevel index) := by
  have hmirrors := h.loaded
  rw [Session.loadLevel, CopySession.loadLevel]
  cases hloaded : session.loaded with
  | none =>
    rw [hloaded] at hmirrors
    generalize copy.loaded = loaded' at *
    cases hmirrors
    exact ⟨rfl, h⟩
  | some loaded =>
    have henter := h.enter (hsound.isDefined_of_loaded hloaded) index .empty
    rw [hloaded] at hmirrors
    generalize copy.loaded = loaded' at *
    cases hmirrors with
    | idle game => exact henter
    | playing _ => exact henter

theorem Mirrors.restart (h : session.Mirrors copy) (hsound : session.Sound limits) :
    session.restart.Mirrors copy.restart := by
  rcases h.cases_play with ⟨hnone, hcopy⟩ | ⟨game, play, copyPlay, hloaded, hcopy, hplay⟩
  · rw [restart_of_play?_eq_none hnone, CopySession.restart_of_play?_eq_none hcopy]
    exact ⟨rfl, h⟩
  · rw [restart_of_loaded hloaded, CopySession.restart_of_loaded hcopy]
    split
    · exact ⟨rfl, h⟩
    · rw [hplay.index_eq]
      exact h.enter (hsound.isDefined_of_loaded hloaded) play.index .empty

theorem Mirrors.move (h : session.Mirrors copy) (hsound : session.Sound limits)
    (movement : Movement) : (session.move movement).Mirrors (copy.move movement) := by
  rcases h.cases_play with ⟨hnone, hcopy⟩ | ⟨game, play, copyPlay, hloaded, hcopy, hplay⟩
  · rw [move_of_play?_eq_none hnone, CopySession.move_of_play?_eq_none hcopy]
    exact ⟨rfl, h⟩
  · rw [move_of_loaded hloaded, CopySession.move_of_loaded hcopy, hplay.won_eq]
    cases hwon : play.won with
    | true => exact ⟨rfl, h⟩
    | false =>
      obtain ⟨hnext, hfired⟩ := hplay.move (hsound.play game play hloaded)
        (hsound.isDefined_of_loaded hloaded) hwon movement
      rw [← hsound.limits_eq] at hnext hfired
      rw [h.limits_eq]
      exact ⟨congrArg Except.ok hfired, h.withPlay hnext⟩

theorem Mirrors.undo (h : session.Mirrors copy) : session.undo.Mirrors copy.undo := by
  rcases h.cases_play with ⟨hnone, hcopy⟩ | ⟨game, play, copyPlay, hloaded, hcopy, hplay⟩
  · rw [undo_of_play?_eq_none hnone, CopySession.undo_of_play?_eq_none hcopy]
    exact ⟨rfl, h⟩
  · rw [undo_of_loaded hloaded, CopySession.undo_of_loaded hcopy]
    split
    · exact ⟨rfl, h⟩
    · obtain ⟨hindex, -, -, hretraces⟩ := hplay
      rw [UndoStack.pop?]
      generalize play.undoStack.records = records at hretraces
      generalize copyPlay.copies = copies at hretraces
      cases hretraces with
      | nil => exact ⟨rfl, h⟩
      | cons hrevert hrest =>
        refine ⟨rfl, h.withPlay ⟨hindex, ?_, rfl, ?_⟩⟩
        · rw [hrevert]
        · rwa [hrevert]

theorem Mirrors.send (h : session.Mirrors copy) (hsound : session.Sound limits) (text : String) :
    (session.send text).Mirrors (copy.send text) := by
  rw [Session.send, CopySession.send]
  generalize Command.ofWord? (Text.trim text) = command
  cases command with
  | none => exact ⟨rfl, h⟩
  | some command =>
    cases command with
    | move movement => exact h.move hsound movement
    | undo => exact h.undo
    | restart =>
      have hrestart := h.restart hsound
      exact ⟨congrArg (Except.map fun _ ↦ true) hrestart.result_eq, hrestart.session⟩

/-- **No request tells the two apart**: both give the same answer and stand alike afterwards. -/
theorem Mirrors.respond (h : session.Mirrors copy) (hsound : session.Sound limits)
    (request : Request) :
    (copy.respond request).1 = (session.respond request).1 ∧
      (session.respond request).2.Mirrors (copy.respond request).2 := by
  rw [Session.respond.eq_def, CopySession.respond.eq_def]
  cases request with
  | load source =>
    dsimp only
    rw [Session.load]
    cases hread : (readGame source).runOn .empty with
    | mk result log =>
      dsimp only
      cases result with
      | ok game =>
        have hopen := h.openGame (isDefined_of_readGame ⟨.empty, log, hread⟩) log
        exact ⟨congrArg Answer.done hopen.result_eq, hopen.session⟩
      | error failure =>
        cases failure with
        | refused error => exact ⟨rfl, h⟩
        | crashed crash => exact ⟨rfl, h⟩
  | openGame game =>
    have hopen := h.openGame game.property .empty
    exact ⟨congrArg Answer.done hopen.result_eq, hopen.session⟩
  | loadLevel index =>
    have hlevel := h.loadLevel hsound index
    exact ⟨congrArg Answer.done hlevel.result_eq, hlevel.session⟩
  | restart =>
    have hrestart := h.restart hsound
    exact ⟨congrArg Answer.done hrestart.result_eq, hrestart.session⟩
  | move movement =>
    have hmove := h.move hsound movement
    exact ⟨congrArg Answer.told hmove.result_eq, hmove.session⟩
  | send text =>
    have hsend := h.send hsound text
    dsimp only
    exact ⟨congrArg Answer.told hsend.result_eq, hsend.session⟩
  | undo =>
    have hundo := h.undo
    exact ⟨congrArg Answer.told hundo.result_eq, hundo.session⟩

/-! ## Whole histories -/

theorem mirrors_start (limits : Limits) : (start limits).Mirrors (.start limits) := ⟨rfl, .nothing⟩

theorem Mirrors.trace_eq (h : session.Mirrors copy) (hsound : session.Sound limits)
    (requests : List Request) : copy.trace requests = session.trace requests := by
  induction requests generalizing session copy with
  | nil => rfl
  | cons request requests ih =>
    obtain ⟨hanswer, hnext⟩ := h.respond hsound request
    rw [CopySession.trace, Session.trace, hanswer, hnext.sight_eq,
      ih hnext ((outlasts_sound limits).respond hsound request)]

theorem exists_mirrors_after (limits : Limits) (requests : List Request) :
    ∃ copy, ((start limits).after requests).Mirrors copy := by
  have hafter : ((start limits).after requests).Sound limits ∧
      ∃ copy, ((start limits).after requests).Mirrors copy := by
    refine List.foldlRecOn (motive := fun session : Session ↦
      session.Sound limits ∧ ∃ copy, session.Mirrors copy) requests _
      ⟨sound_start limits, _, mirrors_start limits⟩ ?_
    rintro session ⟨hsound, copy, hmirrors⟩ request -
    exact ⟨(outlasts_sound limits).respond hsound request, _,
      (hmirrors.respond hsound request).2⟩
  exact hafter.2

/-- Nothing is found missing or in the way, neither when the latest turn is taken back nor when any
next turn, or the first turn of any level, is cancelled. -/
structure MeetsNoViolation (session : Session) : Prop where
  undo : ∀ game play record undoStack, session.loaded = some ⟨game, some play⟩ →
    play.undoStack.pop? = some (record, undoStack) →
    (play.board.revert game record.subturns).2 = []
  move : ∀ game play movement, session.loaded = some ⟨game, some play⟩ →
    (game.runTurn session.limits.maxRewrites (some movement) play.board).violations = []
  start : ∀ game index board, session.game? = some game → game.level? index = some board →
    (game.runTurn session.limits.maxRewrites none board).violations = []

theorem Mirrors.meetsNoViolation (h : session.Mirrors copy) (hsound : session.Sound limits) :
    session.MeetsNoViolation where
  undo game play record undoStack hloaded hpop := by
    obtain ⟨-, hmirrors⟩ := h
    rw [hloaded] at hmirrors
    generalize copy.loaded = loaded at hmirrors
    cases hmirrors with
    | playing hplay =>
      have hretraces := hplay.retraces
      rw [(UndoStack.pop?_eq_some hpop).2] at hretraces
      exact hretraces.violations_revert
  move game play movement hloaded :=
    Game.violations_runTurn (hsound.isDefined_of_loaded hloaded).isLayered
      (hsound.play game play hloaded).fits
  start game index board hgame hlevel := by
    have hdefined := hsound.isDefined game hgame
    obtain ⟨-, hfits, -⟩ := hdefined.isClosed.levels index board hlevel
    exact Game.violations_runTurn hdefined.isLayered hfits

/-- **Sessions are copying sessions** as far as anyone can tell: they give the same answers to any
requests and show the same boards, phases and undo depths, and no violation is ever met. -/
theorem trace_eq_copying (limits : Limits) (requests : List Request) :
    (start limits).trace requests = (CopySession.start limits).trace requests ∧
      ((start limits).after requests).MeetsNoViolation := by
  obtain ⟨copy, hcopy⟩ := exists_mirrors_after limits requests
  exact ⟨((mirrors_start limits).trace_eq (sound_start limits) requests).symm,
    hcopy.meetsNoViolation (sound_after limits requests)⟩

end Session

end TilePuzzle
