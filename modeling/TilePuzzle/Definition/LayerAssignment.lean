import TilePuzzle.Definition.SymbolTable
import TilePuzzle.Document.LineDeclaration

/-!
# Collision layers

Every object has exactly one layer: the layer line that names it, by itself or through a property or
an aggregate. An object may be named several times on its line but not on two lines. The first line
is the bottom layer.
-/

namespace TilePuzzle

/-- The layers found so far, by the number of the object. -/
abbrev LayerAssignment := Array (Option LayerId)

namespace LayerAssignment

/-- The largest number that a layer may have. -/
def maxLayers : Nat := 65535

/-- Puts an object that is named on a given line on a layer. -/
def assign (table : SymbolTable) (line : Nat) (layer : LayerId) (assignment : LayerAssignment)
    (id : ObjectId) : Except DefinitionError LayerAssignment :=
  match assignment[id.index]?.join with
  | none => .ok (assignment.setIfInBounds id.index (some layer))
  | some present =>
    if present = layer then
      .ok assignment
    else
      .error (.multipleLayers line
        ((table.objects[id.index]?.map UnplacedObject.identifier).getD ""))

/-- Puts everything that a name denotes on a layer. -/
def assignName (table : SymbolTable) (line : Nat) (layer : LayerId) (assignment : LayerAssignment)
    (name : String) : Except DefinitionError LayerAssignment := do
  let meaning ← table.legend.resolve line name
  meaning.objects.ids.foldlM (assign table line layer) assignment

/-- Takes up the layer that is declared in a given place. -/
def assignLayer (table : SymbolTable) (assignment : LayerAssignment) :
    LayerDeclaration × Nat → Except DefinitionError LayerAssignment
  | (layer, place) =>
    if maxLayers < place then
      .error (.tooManyLayers maxLayers)
    else
      layer.names.foldlM (assignName table layer.line (.ofIndex place)) assignment

/-- The layers that the layer lines give to the objects. -/
def build (table : SymbolTable) (layers : List LayerDeclaration) :
    Except DefinitionError LayerAssignment :=
  layers.zipIdx.foldlM (assignLayer table) (.replicate table.objects.size none)

end LayerAssignment

/-- The declared object in a given place, with its layer. -/
def UnplacedObject.withLayer (object : UnplacedObject) (layer : Option LayerId) (place : Nat) :
    Except DefinitionError Template :=
  match layer with
  | none => .error (.missingLayer object.line object.identifier)
  | some layer => .ok {
      id := .ofIndex place
      identifier := object.identifier
      layer
      aliases := object.aliases
      appearance := object.appearance }

/-- The objects of a game, each on its layer. -/
def SymbolTable.templates (table : SymbolTable) (layers : List LayerDeclaration) :
    Except DefinitionError (Array Template) := do
  let assignment ← LayerAssignment.build table layers
  let templates ← (table.objects.toList.zip assignment.toList).zipIdx.mapM
    fun ((object, layer), place) ↦ object.withLayer layer place
  return templates.toArray

end TilePuzzle
