import TilePuzzle.Proofs.Outcome
import TilePuzzle.Session

/-!
# Results without messages

Messages do not matter to what comes of a computation. The stages of loading that write some are
followed here by their results alone: every stage `Returns` a result that is computed without a log.

A result is found by going through a stage once, and afterwards the log need not be mentioned:
whether a text is refused, crashes or gives a game is a question about the result.
-/

namespace TilePuzzle

/-! ## Results of computations with messages -/

namespace Logged

variable {ε δ α β σ : Type}

/-- A computation has a result, whatever was written before it. -/
def Returns (computation : Logged ε α) (result : Except ε α) : Prop :=
  ∀ log, (computation.runOn log).1 = result

theorem Returns.eq {computation : Logged ε α} {result result' : Except ε α}
    (h : computation.Returns result) (h' : computation.Returns result') : result = result' :=
  (h .empty).symm.trans (h' .empty)

theorem Returns.gives_iff {computation : Logged ε α} {result : Except ε α}
    (h : computation.Returns result) {a : α} : computation.Gives a ↔ result = .ok a := by
  constructor
  · rintro ⟨log, log', hrun⟩
    rw [← h log, hrun]
  · intro hresult
    exact ⟨.empty, (computation.runOn .empty).2, Prod.ext ((h .empty).trans hresult) rfl⟩

theorem returns_pure (a : α) : (pure a : Logged ε α).Returns (.ok a) := fun _ ↦ rfl

theorem returns_lift (result : Except ε α) : (lift result).Returns result := fun _ ↦ rfl

theorem returns_refuse (result : Except ε α) :
    (refuse result).Returns (result.mapError .refused) := fun _ ↦ rfl

theorem returns_warning (message : String) : (warning message : Logged ε Unit).Returns (.ok ()) :=
  fun _ ↦ rfl

theorem returns_info (message : String) : (info message : Logged ε Unit).Returns (.ok ()) :=
  fun _ ↦ rfl

theorem Returns.mapError {x : Logged ε α} {result : Except ε α} (h : x.Returns result)
    (f : ε → δ) : (Logged.mapError f x).Returns (result.mapError f) :=
  fun log ↦ congrArg (Except.mapError f) (h log)

theorem Returns.bind {x : Logged ε α} {f : α → Logged ε β} {result : Except ε α}
    {next : α → Except ε β} (hx : x.Returns result) (hf : ∀ a, (f a).Returns (next a)) :
    (x >>= f).Returns (result >>= next) := by
  intro log
  change (ExceptT.bindCont f (x log).1 (x log).2).1 = _
  have hresult : (x log).1 = result := hx log
  rw [hresult]
  cases result with
  | error e => rfl
  | ok a => exact hf a (x log).2

theorem Returns.mapM {f : α → Logged ε β} {g : α → Except ε β} (h : ∀ x, (f x).Returns (g x))
    (xs : List α) : (xs.mapM f).Returns (xs.mapM g) := by
  induction xs with
  | nil => exact returns_pure []
  | cons x xs ih =>
    rw [List.mapM_cons, List.mapM_cons]
    exact (h x).bind fun y ↦ ih.bind fun ys ↦ returns_pure (y :: ys)

theorem Returns.foldlM {f : σ → α → Logged ε σ} {g : σ → α → Except ε σ}
    (h : ∀ s x, (f s x).Returns (g s x)) (xs : List α) (s : σ) :
    (xs.foldlM f s).Returns (xs.foldlM g s) := by
  induction xs generalizing s with
  | nil => exact returns_pure s
  | cons x xs ih =>
    rw [List.foldlM_cons, List.foldlM_cons]
    exact (h s x).bind ih

theorem returns_forM {f : α → Logged ε Unit} (h : ∀ x, (f x).Returns (.ok ())) (xs : List α) :
    (xs.forM f).Returns (.ok ()) := by
  induction xs with
  | nil => exact returns_pure ()
  | cons x xs ih => exact (h x).bind fun _ ↦ ih

end Logged

/-! ## Documents -/

/-- What becomes of a text that is read. -/
def Document.readResult (source : String) : Except SyntaxError Document := do
  let lines ← Line.split source
  let chunks ← Chunk.split lines
  chunks.foldlM readChunk empty

namespace Document

theorem returns_reportSkipped (chunk : Chunk) : (reportSkipped chunk).Returns (.ok ()) := by
  rw [reportSkipped]
  split
  · exact Logged.returns_forM (fun _ ↦ Logged.returns_info _) _
  · exact Logged.returns_pure ()

theorem returns_read (source : String) : (read source).Returns (readResult source) := by
  refine (Logged.returns_lift _).bind fun lines ↦ (Logged.returns_lift _).bind fun chunks ↦ ?_
  refine Logged.Returns.foldlM (fun document chunk ↦ ?_) chunks empty
  exact (returns_reportSkipped chunk).bind fun _ ↦ Logged.returns_lift _

end Document

/-! ## Appearances -/

namespace ObjectDeclaration

/-- What a colour word comes to. -/
def readColorResult (word : String) : Except Crash (Option Color) :=
  if Text.sameWord "transparent" word then
    return none
  else do
    let hex ← Color.ofHex word
    return hex.or (Color.named? word)

/-- What a declared object looks like. -/
def appearanceResult (declaration : ObjectDeclaration) : Except Crash Appearance := do
  let palette ← declaration.colors.mapM readColorResult
  return declaration.drawWith palette

theorem returns_readColor (declaration : ObjectDeclaration) (word : String) :
    (declaration.readColor word).Returns (readColorResult word) := by
  rw [readColor, readColorResult]
  split
  · exact Logged.returns_pure none
  · refine (Logged.returns_lift (Color.ofHex word)).bind fun hex ↦ ?_
    cases hex.or (Color.named? word) with
    | some color => exact Logged.returns_pure (some color)
    | none => exact (Logged.returns_warning _).bind fun _ ↦ Logged.returns_pure none

theorem returns_appearance (declaration : ObjectDeclaration) :
    declaration.appearance.Returns declaration.appearanceResult := by
  refine (Logged.Returns.mapM declaration.returns_readColor declaration.colors).bind
    fun palette ↦ ?_
  have hdigit : ∀ digit, (declaration.warnOfDigit palette.length digit).Returns (.ok ()) :=
    fun digit ↦ Logged.returns_warning _
  exact (Logged.returns_forM hdigit _).bind fun _ ↦ Logged.returns_pure _

end ObjectDeclaration

/-! ## Tables -/

namespace SymbolTable

/-- What becomes of a table when a declared object is added. -/
def addObjectResult (table : SymbolTable) (declaration : ObjectDeclaration) :
    Except (Failure DefinitionError) SymbolTable := do
  let legend ← (table.nameObject declaration).mapError .refused
  let appearance ← declaration.appearanceResult.mapError .crashed
  return ⟨table.objects.push
    ⟨declaration.line, declaration.name, declaration.glyphs, appearance⟩, legend⟩

/-- What becomes of declared objects and legend lines. -/
def buildResult (declarations : List ObjectDeclaration) (definitions : List LegendDefinition) :
    Except (Failure DefinitionError) SymbolTable := do
  let table ← declarations.foldlM addObjectResult empty
  (definitions.foldlM addDefinition table).mapError .refused

theorem returns_addObject (table : SymbolTable) (declaration : ObjectDeclaration) :
    (table.addObject declaration).Returns (table.addObjectResult declaration) :=
  (Logged.returns_refuse _).bind fun _ ↦
    (declaration.returns_appearance.mapError Failure.crashed).bind fun _ ↦ Logged.returns_pure _

theorem returns_build (declarations : List ObjectDeclaration)
    (definitions : List LegendDefinition) :
    (build declarations definitions).Returns (buildResult declarations definitions) :=
  (Logged.Returns.foldlM returns_addObject declarations empty).bind fun _ ↦
    Logged.returns_refuse _

end SymbolTable

/-! ## Games -/

namespace Game

/-- What becomes of a document whose game is put together. -/
def ofDocumentResult (document : Document) : Except (Failure DefinitionError) Game := do
  let table ← SymbolTable.buildResult document.objects document.legend
  (ofTable document table).mapError .refused

theorem returns_ofDocument (document : Document) :
    (ofDocument document).Returns (ofDocumentResult document) := by
  refine (SymbolTable.returns_build _ _).bind fun table ↦ ?_
  rw [← bind_pure ((ofTable document table).mapError Failure.refused)]
  refine (Logged.returns_refuse _).bind fun game ↦ ?_
  dsimp only
  split
  · exact (Logged.returns_warning _).bind fun _ ↦ Logged.returns_pure game
  · exact Logged.returns_pure game

end Game

namespace Session

/-- What becomes of a text whose game is read. -/
def readGameResult (source : String) : Except (Failure SessionError) Game := do
  let document ← (Document.readResult source).mapError fun error ↦ .refused (.malformed error)
  (Game.ofDocumentResult document).mapError (Failure.map .undefinable)

theorem returns_readGame (source : String) :
    (readGame source).Returns (readGameResult source) :=
  ((Document.returns_read source).mapError _).bind fun document ↦
    (Game.returns_ofDocument document).mapError _

end Session

end TilePuzzle
