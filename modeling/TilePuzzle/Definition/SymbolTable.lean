import TilePuzzle.Definition.Appearance
import TilePuzzle.Definition.Error
import TilePuzzle.Document.LegendDefinition
import TilePuzzle.Game

/-!
# Names

The objects are numbered in the order of declaration, and each is known by its name and by the
symbols written behind it. Legend lines then give further names, each in terms of earlier ones. All
names share one space without regard to ASCII case, and no name may be given twice.

An `or` of names is a property and an `and` of names an aggregate; neither may contain the other.
-/

namespace TilePuzzle

/-! ## Resolving and defining names -/

namespace Legend

/-- What a name used on a given line denotes. -/
def resolve (legend : Legend) (line : Nat) (name : String) : Except DefinitionError Meaning :=
  match legend.lookup? name with
  | none => .error (.undefinedName line name)
  | some meaning => .ok meaning

/-- Gives a new name a meaning. -/
def define (legend : Legend) (line : Nat) (name : String) (meaning : Meaning) :
    Except DefinitionError Legend :=
  if legend.contains (Text.fold name) then
    .error (.duplicateName line name)
  else
    .ok (legend.insert (Text.fold name) meaning)

/-- The objects that a name adds to a property. -/
def propertyPart (legend : Legend) (definition : LegendDefinition) (name : String) :
    Except DefinitionError (List ObjectId) := do
  match ← legend.resolve definition.line name with
  | .object id => return [id]
  | .property members => return members.ids
  | .aggregate _ =>
    throw (.propertyContainsAggregate definition.line definition.symbol name)

/-- The objects that a name adds to an aggregate. -/
def aggregatePart (legend : Legend) (definition : LegendDefinition) (name : String) :
    Except DefinitionError (List ObjectId) := do
  match ← legend.resolve definition.line name with
  | .object id => return [id]
  | .property _ =>
    throw (.aggregateContainsProperty definition.line definition.symbol name)
  | .aggregate members => return members

/-- What the names of a legend line denote together. -/
def denote (legend : Legend) (definition : LegendDefinition) : Except DefinitionError Meaning :=
  match definition.joining with
  | .alone => legend.resolve definition.line (definition.names.headD "")
  | .either => do
    let parts ← definition.names.mapM (legend.propertyPart definition)
    return .property (.ofList parts.flatten)
  | .together => do
    let parts ← definition.names.mapM (legend.aggregatePart definition)
    return .aggregate parts.flatten

end Legend

/-! ## The table -/

/-- A declared object before it has a layer. -/
structure UnplacedObject where
  /-- The line of the name. -/
  line : Nat
  identifier : String
  aliases : List String
  appearance : Appearance
deriving DecidableEq, Inhabited

/-- The objects by number and what each name denotes. -/
structure SymbolTable where
  objects : Array UnplacedObject
  legend : Legend
deriving Inhabited

namespace SymbolTable

/-- The largest number that an object may have. -/
def maxObjects : Nat := 65535

/-- No object and no name. -/
def empty : SymbolTable := ⟨#[], ∅⟩

/-- The legend with the names of the next object added. -/
def nameObject (table : SymbolTable) (declaration : ObjectDeclaration) :
    Except DefinitionError Legend :=
  if maxObjects < table.objects.size then
    .error (.tooManyObjects maxObjects)
  else
    (declaration.name :: declaration.glyphs).foldlM (fun legend name ↦
      legend.define declaration.line name (.object (.ofIndex table.objects.size))) table.legend

/-- Adds a declared object. -/
def addObject (table : SymbolTable) (declaration : ObjectDeclaration) :
    Logged (Failure DefinitionError) SymbolTable := do
  let legend ← Logged.refuse (table.nameObject declaration)
  let appearance ← Logged.mapError .crashed declaration.appearance
  let object : UnplacedObject :=
    ⟨declaration.line, declaration.name, declaration.glyphs, appearance⟩
  return ⟨table.objects.push object, legend⟩

/-- Notes a further name of an object, if that is what the name denotes. -/
def addAlias (objects : Array UnplacedObject) (symbol : String) : Meaning → Array UnplacedObject
  | .object id => objects.modify id.index fun object ↦
      { object with aliases := object.aliases ++ [symbol] }
  | .property _ => objects
  | .aggregate _ => objects

/-- Adds the name that a legend line defines. -/
def addDefinition (table : SymbolTable) (definition : LegendDefinition) :
    Except DefinitionError SymbolTable := do
  let meaning ← table.legend.denote definition
  let legend ← table.legend.define definition.line definition.symbol meaning
  return ⟨addAlias table.objects definition.symbol meaning, legend⟩

/-- The table of the declared objects and the names that the legend defines. -/
def build (declarations : List ObjectDeclaration) (definitions : List LegendDefinition) :
    Logged (Failure DefinitionError) SymbolTable := do
  let table ← declarations.foldlM addObject empty
  Logged.refuse (definitions.foldlM addDefinition table)

end SymbolTable

end TilePuzzle
