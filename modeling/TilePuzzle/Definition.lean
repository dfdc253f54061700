import TilePuzzle.Definition.Board
import TilePuzzle.Definition.Expansion
import TilePuzzle.Definition.LayerAssignment
import TilePuzzle.Document

/-!
# From documents to games

A document is taken apart in the order in which its parts depend on each other: names, layers, the
player, rules, win conditions, levels. The first inconsistency ends it, so a document either defines
a whole game or none.
-/

namespace TilePuzzle

/-! ## Settings and win conditions -/

namespace Settings

/-- No setting. -/
def empty : Settings := ⟨none, none, none, false, false, false, ∅⟩

/-- Takes over a setting; of two with one key the later counts. -/
def add (settings : Settings) (setting : Setting) : Settings :=
  match setting.key with
  | "title" => { settings with title := setting.value }
  | "author" => { settings with author := setting.value }
  | "homepage" => { settings with homepage := setting.value }
  | "noundo" => { settings with noUndo := true }
  | "norestart" => { settings with noRestart := true }
  | "run_rules_on_level_start" => { settings with rulesOnLevelStart := true }
  | key => { settings with extra := settings.extra.insert key (setting.value.getD "") }

/-- The settings of a prelude. -/
def ofList (settings : List Setting) : Settings := settings.foldl add empty

end Settings

/-- The win condition that a line states. -/
def WinCondition.ofDeclaration (legend : Legend) (declaration : WinDeclaration) :
    Except DefinitionError WinCondition := do
  let subject ← legend.resolve declaration.line declaration.subject
  let target ← declaration.target.mapM (legend.resolve declaration.line)
  return {
    line := declaration.line
    quantifier := declaration.quantifier
    subject := subject.objects
    target := target.map Meaning.objects }

/-! ## Games -/

namespace Game

/-- The objects that carry out the player's input. -/
def playerOf (legend : Legend) : Except DefinitionError ObjectSet :=
  match legend.lookup? "player" with
  | none => .error .missingPlayer
  | some meaning =>
    if meaning.objects.isEmpty then .error .missingPlayer else .ok meaning.objects

/-- The game of a document whose names are known. -/
def ofTable (document : Document) (table : SymbolTable) : Except DefinitionError Game := do
  let objects ← table.templates document.layers
  let player ← playerOf table.legend
  let groups ← RuleGroup.build table.legend document.rules
  let winConditions ← document.winConditions.mapM (WinCondition.ofDeclaration table.legend)
  let levels ← document.levels.zipIdx.mapM
    (Board.ofDrawing table.legend objects document.layers.length)
  return {
    settings := .ofList document.settings
    objects
    layerCount := document.layers.length
    legend := table.legend
    player
    groups
    winConditions
    levels := levels.toArray }

/-- The game that a document defines. -/
def ofDocument (document : Document) : Logged (Failure DefinitionError) Game := do
  let table ← SymbolTable.build document.objects document.legend
  let game ← Logged.refuse (ofTable document table)
  if game.levels.isEmpty then
    Logged.warning "game defines no levels"
  return game

/-- The game that a document defines, an error being turned into a message. -/
def ofDocumentOrReport (document : Document) (log : Log) : Except Crash (Option Game) × Log :=
  match (ofDocument document).runOn log with
  | (.ok game, log) => (.ok (some game), log)
  | (.error (.crashed crash), log) => (.error crash, log)
  | (.error (.refused error), log) => (.ok none, log.error s!"compile error: {error.message}")

end Game

end TilePuzzle
