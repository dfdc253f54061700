import TilePuzzle.Proofs.Balance
import TilePuzzle.Proofs.Session.Consistent

/-!
# What a movement says of the board

The answer to a movement is a truth value that a host will take for whether the board has changed.
What it says is whether a rule fired. The two are not the same: without a firing the board is as it
was, but a rule may fire and only give or take an intent, and rules may undo what others did. They
come apart exactly when some rule fired and the record of the turn is balanced.
-/

namespace TilePuzzle

theorem TurnRecord.isEmpty_eq_false_iff {record : TurnRecord} :
    record.isEmpty = false ↔ ∃ subturn ∈ record.subturns, subturn.firings ≠ [] := by
  rw [isEmpty, List.all_eq_false]
  simp only [List.isEmpty_iff]

namespace Session

variable {session : Session}

theorem exists_play_of_phase {index : Nat} (h : session.phase = .levelLoaded index) :
    ∃ game play, session.loaded = some ⟨game, some play⟩ ∧ play.won = false := by
  rcases session.play?_cases with hnone | ⟨game, play, hloaded⟩
  · rw [phase, hnone] at h
    cases h
  · refine ⟨game, play, hloaded, eq_false_of_ne_true fun hwon ↦ ?_⟩
    rw [phase_of_loaded hloaded, if_pos hwon] at h
    cases h

theorem move_eq {game : Game} {play : Play} (hloaded : session.loaded = some ⟨game, some play⟩)
    (hwon : play.won = false) (movement : Movement) :
    let turn := game.runTurn session.limits.maxRewrites (some movement) play.board
    (session.move movement).result = .ok (!turn.record.isEmpty) ∧
      (session.move movement).session = session.withPlay game (play.next game turn) := by
  simp [move_of_loaded hloaded, hwon]

/-- **What a movement says of the board**: it says whether a rule fired. If none did the board has
not changed, and if one did it has changed unless the record is balanced. -/
theorem move_reports (limits : Limits) (requests : List Request) (movement : Movement) {index : Nat}
    (h : ((start limits).after requests).phase = .levelLoaded index) :
    let session := (start limits).after requests
    let reply := session.move movement
    ∃ changed board board', reply.result = .ok changed ∧
      session.board? = some board ∧ reply.session.board? = some board' ∧
      (changed = true ↔ ∃ subturn ∈ reply.session.subturns, subturn.firings ≠ []) ∧
      (board' = board ↔ IsBalanced reply.session.subturns) ∧
      (changed = false → board' = board) ∧
      ((changed = true ↔ board' ≠ board) ↔
        (IsBalanced reply.session.subturns → changed = false)) := by
  dsimp only
  have hsound := sound_after limits requests
  generalize (start limits).after requests = session at h hsound ⊢
  obtain ⟨game, play, hloaded, hwon⟩ := exists_play_of_phase h
  obtain ⟨hresult, hsession⟩ := move_eq hloaded hwon movement
  have hgame := (hsound.isDefined_of_loaded hloaded).isLayered
  have hplay := hsound.play game play hloaded
  have hbalanced := Game.board_runTurn_eq_iff hgame hplay.fits hplay.isStill
    session.limits.maxRewrites (some movement)
  have hidle := Game.board_runTurn_of_isEmpty hgame hplay.fits hplay.isStill
    session.limits.maxRewrites (some movement)
  have hboard := board?_of_loaded hloaded
  rw [hresult, hsession, hboard]
  generalize game.runTurn session.limits.maxRewrites (some movement) play.board = turn at *
  have hsame : (!turn.record.isEmpty) = false → turn.board = play.board := by
    rw [Bool.not_eq_false']
    exact hidle
  refine ⟨!turn.record.isEmpty, play.board, turn.board, rfl, rfl, rfl, ?_, hbalanced, hsame, ?_⟩
  · rw [Bool.not_eq_true']
    exact TurnRecord.isEmpty_eq_false_iff
  · constructor
    · intro htrue hrecord
      exact eq_false_of_ne_true fun hchanged ↦ htrue.mp hchanged (hbalanced.mpr hrecord)
    · intro hrecord
      constructor
      · intro hchanged hboards
        rw [hrecord (hbalanced.mp hboards)] at hchanged
        cases hchanged
      · intro hboards
        exact eq_true_of_ne_false fun hchanged ↦ hboards (hsame hchanged)

/-! ## A player that stays -/

/-- A player that is told to go and stays. -/
def reluctance : String :=
  "OBJECTS\nPlayer P\n\nFloor .\nCOLLISIONLAYERS\n.\nP\nRULES\n[ > P ] -> [ P ]\nLEVELS\nP.\n"

/-- The player's rule fires and takes the intent, and nothing else happens. -/
theorem move_reluctance : ∃ session : Session,
    session = (start .standard).after [.load reluctance] ∧ session.phase = .levelLoaded 0 ∧
      (session.move (.toward .right)).session.subturns ≠ [] ∧
      IsBalanced (session.move (.toward .right)).session.subturns ∧
      (session.move (.toward .right)).result = .ok true ∧
      (session.move (.toward .right)).session.board? = session.board? := by
  have htest : (fun session : Session ↦ decide (session.phase = .levelLoaded 0 ∧
      (session.move (.toward .right)).session.subturns ≠ [] ∧
      IsBalanced (session.move (.toward .right)).session.subturns ∧
      (session.move (.toward .right)).result.toOption = some true ∧
      (session.move (.toward .right)).session.board? = session.board?))
      ((start .standard).after [.load reluctance]) = true := by
    decide +kernel
  generalize (start .standard).after [.load reluctance] = session at htest
  obtain ⟨hphase, hsubturns, hbalanced, hresult, hboard⟩ := of_decide_eq_true htest
  refine ⟨session, rfl, hphase, hsubturns, hbalanced, ?_, hboard⟩
  cases hmove : (session.move (.toward .right)).result with
  | ok changed => rw [hmove] at hresult; exact congrArg Except.ok (Option.some.inj hresult)
  | error error => rw [hmove] at hresult; cases hresult

/-- It is not so that the answer to a movement tells whether the board has changed: the player that
stays is said to have changed it. -/
theorem not_forall_move_tells : ¬∀ (limits : Limits) (requests : List Request)
    (movement : Movement) (index : Nat),
    ((start limits).after requests).phase = .levelLoaded index →
      let session := (start limits).after requests
      let reply := session.move movement
      (reply.result = .ok true ↔ reply.session.board? ≠ session.board?) ∧
        (reply.result = .ok false ↔ reply.session.board? = session.board?) := by
  intro h
  obtain ⟨session, hsession, hphase, -, -, hresult, hboard⟩ := move_reluctance
  have hclaim := h .standard [.load reluctance] (.toward .right) 0
  rw [← hsession] at hclaim
  exact (hclaim hphase).1.mp hresult hboard

/-- In the level of the player that stays, a movement says that a rule fired. -/
theorem move_reports_reluctance : ∃ session : Session,
    session = (start .standard).after [.load reluctance] ∧ session.phase = .levelLoaded 0 ∧
      ∃ changed, (session.move (.toward .right)).result = .ok changed ∧
        (changed = true ↔ ∃ subturn ∈ (session.move (.toward .right)).session.subturns,
          subturn.firings ≠ []) ∧
        ¬(changed = true ↔
          (session.move (.toward .right)).session.board? ≠ session.board?) := by
  obtain ⟨session, hsession, hphase, -, -, hresult, hboard⟩ := move_reluctance
  have hclaim := @move_reports .standard [.load reluctance] (.toward .right) 0
  rw [← hsession] at hclaim
  obtain ⟨changed, -, -, hresult', -, -, hfired, -⟩ := hclaim hphase
  refine ⟨session, hsession, hphase, changed, hresult', hfired, fun hdiffers ↦ ?_⟩
  rw [hresult] at hresult'
  exact hdiffers.mp (Except.ok.inj hresult').symm hboard

end Session

end TilePuzzle
