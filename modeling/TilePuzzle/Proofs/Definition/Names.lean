import Std.Data.TreeMap.Lemmas
import TilePuzzle.Definition.LayerAssignment
import TilePuzzle.Proofs.Fit
import TilePuzzle.Proofs.Outcome

/-!
# Names and layers denote declared objects

The objects of a document are numbered as they are declared, and a name can only be defined in terms
of names that are there already. So at every moment the legend mentions only objects declared so
far, however deeply properties and aggregates are nested. When the layer lines are through, every
object stands on a layer that exists.

## The invariant

"Declared so far" is a bound on numbers: `Within count` says that every object mentioned has a
number below `count`. It is kept when the bound grows, so it has to be shown only for what is added.
With the number of the declared objects for the bound it is part of `SymbolTable.IsClosed`, which
every line of a document keeps.

## The arena

The finished table has layers in one list and objects in another. `Template.Placed` says of the two
put together that object `k` has number `k` and stands on a layer of the game.
-/

namespace TilePuzzle

/-! ## Objects below a bound -/

/-- Every member has a number below a bound. -/
def ObjectSet.Within (count : Nat) (set : ObjectSet) : Prop := ∀ id ∈ set.ids, id.index < count

/-- The objects that a meaning mentions. -/
def Meaning.ids : Meaning → List ObjectId
  | object id => [id]
  | property members => members.ids
  | aggregate members => members

/-- Every object that a meaning mentions has a number below a bound. -/
def Meaning.Within (count : Nat) (meaning : Meaning) : Prop := ∀ id ∈ meaning.ids, id.index < count

/-- Every object that a legend mentions has a number below a bound. -/
def Legend.Within (count : Nat) (legend : Legend) : Prop :=
  ∀ (name : String) (meaning : Meaning), legend[name]? = some meaning → meaning.Within count

namespace ObjectSet

@[simp] theorem mem_ids_ofList {ids : List ObjectId} {id : ObjectId} :
    id ∈ (ofList ids).ids ↔ id ∈ ids := by
  have h : (ofList ids).contains id = true ↔ id ∈ ids := contains_ofList
  rwa [contains, List.contains_iff_mem] at h

theorem within_ofList {count : Nat} {ids : List ObjectId} :
    (ofList ids).Within count ↔ ∀ id ∈ ids, id.index < count :=
  forall_congr' fun _ ↦ by rw [mem_ids_ofList]

theorem within_single {count : Nat} {id : ObjectId} (h : id.index < count) :
    (single id).Within count := by
  intro x hx
  rw [single, List.mem_singleton] at hx
  exact hx ▸ h

end ObjectSet

@[simp] theorem Meaning.mem_ids_objects {meaning : Meaning} {id : ObjectId} :
    id ∈ meaning.objects.ids ↔ id ∈ meaning.ids := by
  cases meaning with
  | object own => rfl
  | property members => rfl
  | aggregate members => exact ObjectSet.mem_ids_ofList

theorem Meaning.Within.objects {count : Nat} {meaning : Meaning} (h : meaning.Within count) :
    meaning.objects.Within count :=
  fun id hid ↦ h id (mem_ids_objects.mp hid)

/-! ## Resolving and defining names -/

namespace Legend

variable {legend legend' : Legend} {line : Nat} {name key : String} {meaning : Meaning}
  {definition : LegendDefinition}

theorem resolve_eq_ok_iff :
    legend.resolve line name = .ok meaning ↔ legend.lookup? name = some meaning := by
  rw [resolve]
  cases legend.lookup? name with
  | none => exact iff_of_false nofun nofun
  | some found =>
    exact ⟨fun h ↦ congrArg some (Except.ok.inj h), fun h ↦ congrArg Except.ok (Option.some.inj h)⟩

theorem resolve_eq_error_iff {error : DefinitionError} : legend.resolve line name = .error error ↔
    legend.lookup? name = none ∧ error = .undefinedName line name := by
  rw [resolve]
  cases legend.lookup? name with
  | none => exact ⟨fun h ↦ ⟨rfl, (Except.error.inj h).symm⟩, fun h ↦ congrArg Except.error h.2.symm⟩
  | some found => exact iff_of_false nofun fun h ↦ nomatch h.1

theorem define_eq_ok_iff : legend.define line name meaning = .ok legend' ↔
    Text.fold name ∉ legend ∧ legend' = legend.insert (Text.fold name) meaning := by
  rw [define]
  split
  · next hmem => exact iff_of_false (fun h ↦ by cases h) fun h ↦ h.1 hmem
  · next hmem =>
    exact ⟨fun h ↦ ⟨hmem, (Except.ok.inj h).symm⟩, fun h ↦ congrArg Except.ok h.2.symm⟩

theorem define_eq_error_iff {error : DefinitionError} :
    legend.define line name meaning = .error error ↔
      Text.fold name ∈ legend ∧ error = .duplicateName line name := by
  rw [define]
  split
  · next hmem =>
    exact ⟨fun h ↦ ⟨hmem, (Except.error.inj h).symm⟩, fun h ↦ congrArg Except.error h.2.symm⟩
  · next hmem => exact iff_of_false (fun h ↦ by cases h) fun h ↦ hmem h.1

theorem getElem?_insert (legend : Legend) (name key : String) (meaning : Meaning) :
    (legend.insert name meaning)[key]? = if name = key then some meaning else legend[key]? := by
  rw [Std.TreeMap.getElem?_insert]
  simp only [Std.LawfulEqCmp.compare_eq_iff_eq]

theorem mem_of_getElem? (h : legend[key]? = some meaning) : key ∈ legend := by
  rw [Std.TreeMap.mem_iff_isSome_getElem?, h]
  rfl

theorem propertyPart_eq_ok_iff {ids : List ObjectId} :
    legend.propertyPart definition name = .ok ids ↔ ∃ part, (legend.lookup? name = some part ∧
      ∀ members, part ≠ .aggregate members) ∧ ids = part.ids := by
  rw [propertyPart, bind_eq_ok_iff]
  simp only [resolve_eq_ok_iff, and_assoc]
  refine exists_congr fun part ↦ and_congr_right fun _ ↦ ?_
  cases part with
  | object id => exact pure_eq_ok_iff.trans (by simp [Meaning.ids, eq_comm])
  | property members => exact pure_eq_ok_iff.trans (by simp [Meaning.ids, eq_comm])
  | aggregate members => exact iff_of_false (fun h ↦ by cases h) fun h ↦ h.1 members rfl

theorem aggregatePart_eq_ok_iff {ids : List ObjectId} :
    legend.aggregatePart definition name = .ok ids ↔ ∃ part, (legend.lookup? name = some part ∧
      ∀ members, part ≠ .property members) ∧ ids = part.ids := by
  rw [aggregatePart, bind_eq_ok_iff]
  simp only [resolve_eq_ok_iff, and_assoc]
  refine exists_congr fun part ↦ and_congr_right fun _ ↦ ?_
  cases part with
  | object id => exact pure_eq_ok_iff.trans (by simp [Meaning.ids, eq_comm])
  | property members => exact iff_of_false (fun h ↦ by cases h) fun h ↦ h.1 members rfl
  | aggregate members => exact pure_eq_ok_iff.trans (by simp [Meaning.ids, eq_comm])

end Legend

/-! ## The legend -/

namespace Legend

variable {count : Nat} {legend : Legend} {line : Nat} {name : String} {meaning : Meaning}

theorem Within.lookup? (h : legend.Within count) (hlookup : legend.lookup? name = some meaning) :
    meaning.Within count := h _ meaning hlookup

theorem Within.resolve (h : legend.Within count)
    (hresolve : legend.resolve line name = .ok meaning) : meaning.Within count :=
  h.lookup? (resolve_eq_ok_iff.mp hresolve)

theorem Within.mono {count' : Nat} (h : legend.Within count) (hle : count ≤ count') :
    legend.Within count' :=
  fun name meaning hname id hid ↦ Nat.lt_of_lt_of_le (h name meaning hname id hid) hle

theorem Within.define {legend' : Legend} (h : legend.Within count) (hmeaning : meaning.Within count)
    (hdefine : legend.define line name meaning = .ok legend') : legend'.Within count := by
  obtain ⟨-, rfl⟩ := define_eq_ok_iff.mp hdefine
  intro name' meaning' hname'
  rw [getElem?_insert] at hname'
  split at hname'
  · exact Option.some.inj hname' ▸ hmeaning
  · exact h name' meaning' hname'

theorem Within.propertyPart {definition : LegendDefinition} {ids : List ObjectId}
    (h : legend.Within count) (hpart : legend.propertyPart definition name = .ok ids) :
    ∀ id ∈ ids, id.index < count := by
  obtain ⟨part, ⟨hlookup, -⟩, rfl⟩ := propertyPart_eq_ok_iff.mp hpart
  exact h.lookup? hlookup

theorem Within.aggregatePart {definition : LegendDefinition} {ids : List ObjectId}
    (h : legend.Within count) (hpart : legend.aggregatePart definition name = .ok ids) :
    ∀ id ∈ ids, id.index < count := by
  obtain ⟨part, ⟨hlookup, -⟩, rfl⟩ := aggregatePart_eq_ok_iff.mp hpart
  exact h.lookup? hlookup

/-- What the parts of a definition mention, the whole mentions. -/
private theorem lt_of_mem_flatten {part : String → Except DefinitionError (List ObjectId)}
    {names : List String} {parts : List (List ObjectId)} (hparts : names.mapM part = .ok parts)
    (hpart : ∀ name ids, part name = .ok ids → ∀ id ∈ ids, id.index < count) :
    ∀ id ∈ parts.flatten, id.index < count := by
  intro id hid
  obtain ⟨ids, hids, hid⟩ := List.mem_flatten.mp hid
  obtain ⟨name, -, hname⟩ := mem_of_mapM_eq_ok hparts hids
  exact hpart name ids hname id hid

theorem Within.denote {definition : LegendDefinition} (h : legend.Within count)
    (hdenote : legend.denote definition = .ok meaning) : meaning.Within count := by
  rw [Legend.denote] at hdenote
  cases hjoining : definition.joining with
  | alone =>
    rw [hjoining] at hdenote
    exact h.resolve hdenote
  | either =>
    rw [hjoining] at hdenote
    obtain ⟨parts, hparts, hmeaning⟩ := bind_eq_ok_iff.mp hdenote
    cases hmeaning
    exact ObjectSet.within_ofList.mpr (lt_of_mem_flatten hparts fun _ _ ↦ h.propertyPart)
  | together =>
    rw [hjoining] at hdenote
    obtain ⟨parts, hparts, hmeaning⟩ := bind_eq_ok_iff.mp hdenote
    cases hmeaning
    exact lt_of_mem_flatten hparts fun _ _ ↦ h.aggregatePart

end Legend

/-! ## The symbol table -/

namespace ObjectId

/-- The largest number of objects that sixteen-bit numbers tell apart. -/
def bound : Nat := 65536

theorem index_ofIndex {n : Nat} (h : n < bound) : (ofIndex n).index = n := by
  rw [index, ofIndex]
  exact Nat.mod_eq_of_lt h

@[simp] theorem ofIndex_index (id : ObjectId) : ofIndex id.index = id :=
  index_inj.mp (index_ofIndex (UInt16.toNat_lt id.code))

end ObjectId

namespace SymbolTable

/-- The objects are few enough to be numbered, and the legend mentions no others. -/
structure IsClosed (table : SymbolTable) : Prop where
  size_le : table.objects.size ≤ ObjectId.bound
  within : table.legend.Within table.objects.size

theorem isClosed_empty : empty.IsClosed where
  size_le := Nat.zero_le _
  within name meaning h := by
    have hempty : (∅ : Legend)[name]? = none := Std.TreeMap.getElem?_emptyc
    exact absurd (h.symm.trans hempty) (by simp)

variable {table table' : SymbolTable}

/-- The names of a new object mention that object and earlier ones. -/
theorem IsClosed.nameObject (h : table.IsClosed) {declaration : ObjectDeclaration} {legend : Legend}
    (hname : table.nameObject declaration = .ok legend) :
    table.objects.size + 1 ≤ ObjectId.bound ∧ legend.Within (table.objects.size + 1) := by
  rw [SymbolTable.nameObject] at hname
  split at hname
  · simp at hname
  · next hsize =>
    have hlt : table.objects.size < ObjectId.bound := by
      rw [maxObjects] at hsize
      rw [ObjectId.bound]
      omega
    -- the object counts as declared while its names are defined
    refine ⟨hlt, foldlM_ok_induction ?_ hname (h.within.mono (Nat.le_succ _))⟩
    intro before name after _ hdefine hbefore
    refine hbefore.define ?_ hdefine
    intro id hid
    rw [Meaning.ids, List.mem_singleton] at hid
    rw [hid, ObjectId.index_ofIndex hlt]
    exact Nat.lt_succ_self _

theorem IsClosed.addObject (h : table.IsClosed) {declaration : ObjectDeclaration}
    (hadd : (table.addObject declaration).Gives table') : table'.IsClosed := by
  obtain ⟨legend, hlegend, hadd⟩ := Logged.Gives.bind hadd
  obtain ⟨appearance, -, hadd⟩ := Logged.Gives.bind hadd
  obtain ⟨hsize, hwithin⟩ := h.nameObject (Logged.Gives.refuse hlegend)
  obtain rfl := Logged.Gives.pure hadd
  constructor
  · rwa [Array.size_push]
  · rwa [Array.size_push]

@[simp] theorem size_addAlias (objects : Array UnplacedObject) (symbol : String)
    (meaning : Meaning) : (addAlias objects symbol meaning).size = objects.size := by
  cases meaning with
  | object id => exact Array.size_modify
  | property members => rfl
  | aggregate members => rfl

theorem IsClosed.addDefinition (h : table.IsClosed) {definition : LegendDefinition}
    (hadd : table.addDefinition definition = .ok table') : table'.IsClosed := by
  obtain ⟨meaning, hmeaning, hadd⟩ := bind_eq_ok_iff.mp hadd
  obtain ⟨legend, hlegend, hadd⟩ := bind_eq_ok_iff.mp hadd
  obtain rfl := pure_eq_ok_iff.mp hadd
  constructor
  · rw [size_addAlias]
    exact h.size_le
  · rw [size_addAlias]
    exact h.within.define (h.within.denote hmeaning) hlegend

/-- **Names denote declared objects**, through any nesting of legend lines. -/
theorem isClosed_of_build {declarations : List ObjectDeclaration}
    {definitions : List LegendDefinition} (h : (build declarations definitions).Gives table) :
    table.IsClosed := by
  obtain ⟨named, hnamed, h⟩ := Logged.Gives.bind h
  have hclosed : named.IsClosed :=
    hnamed.foldlM (fun _ _ _ _ hadd hbefore ↦ hbefore.addObject hadd) isClosed_empty
  exact foldlM_ok_induction (fun _ _ _ _ hadd hbefore ↦ hbefore.addDefinition hadd)
    (Logged.Gives.refuse h) hclosed

end SymbolTable

/-! ## Layers -/

namespace LayerAssignment

/-- Every layer given so far is one of a number of layers. -/
def Within (layerCount : Nat) (assignment : LayerAssignment) : Prop :=
  ∀ (place : Nat) (layer : LayerId), assignment[place]? = some (some layer) →
    layer.index < layerCount

variable {table : SymbolTable} {layerCount : Nat} {assignment assignment' : LayerAssignment}

theorem Within.assign (h : assignment.Within layerCount) {line : Nat} {layer : LayerId}
    (hlayer : layer.index < layerCount) {id : ObjectId}
    (hassign : assign table line layer assignment id = .ok assignment') :
    assignment'.Within layerCount := by
  rw [LayerAssignment.assign] at hassign
  split at hassign
  · cases hassign
    intro place found hfound
    rw [Array.getElem?_setIfInBounds] at hfound
    split at hfound
    · split at hfound
      · cases hfound
        exact hlayer
      · simp at hfound
    · exact h place found hfound
  · split at hassign
    · cases hassign
      exact h
    · simp at hassign

theorem Within.assignName (h : assignment.Within layerCount) {line : Nat} {layer : LayerId}
    (hlayer : layer.index < layerCount) {name : String}
    (hassign : assignName table line layer assignment name = .ok assignment') :
    assignment'.Within layerCount := by
  obtain ⟨meaning, -, hassign⟩ := bind_eq_ok_iff.mp hassign
  exact foldlM_ok_induction (fun _ _ _ _ hstep hbefore ↦ hbefore.assign hlayer hstep) hassign h

theorem Within.assignLayer (h : assignment.Within layerCount) {declaration : LayerDeclaration}
    {place : Nat} (hplace : place < layerCount)
    (hassign : assignLayer table assignment (declaration, place) = .ok assignment') :
    assignment'.Within layerCount := by
  rw [LayerAssignment.assignLayer] at hassign
  split at hassign
  · simp at hassign
  · next hmax =>
    have hindex : (LayerId.ofIndex place).index = place := by
      refine LayerId.index_ofIndex ?_
      rw [maxLayers] at hmax
      rw [LayerId.bound]
      omega
    exact foldlM_ok_induction
      (fun _ _ _ _ hstep hbefore ↦ hbefore.assignName (hindex.symm ▸ hplace) hstep) hassign h

/-- The layer lines are few enough to be numbered, and give only layers that they declare. -/
theorem within_of_build {layers : List LayerDeclaration}
    (h : build table layers = .ok assignment) :
    layers.length ≤ LayerId.bound ∧ assignment.Within layers.length := by
  constructor
  · refine Nat.le_of_not_lt fun hlt ↦ ?_
    -- the first line too many would have been refused
    have hmem : (layers[LayerId.bound], LayerId.bound) ∈ layers.zipIdx :=
      List.mem_zipIdx_iff_getElem?.mpr (List.getElem?_eq_getElem hlt)
    obtain ⟨before, after, hstep⟩ := exists_step_of_foldlM_eq_ok h hmem
    rw [assignLayer, if_pos (by decide)] at hstep
    simp at hstep
  · refine foldlM_ok_induction ?_ h ?_
    · rintro before ⟨declaration, place⟩ after hmem hstep hbefore
      have hplace := List.mem_zipIdx_iff_getElem?.mp hmem
      exact hbefore.assignLayer (List.getElem?_eq_some_iff.mp hplace).1 hstep
    · intro place layer hnone
      rw [Array.getElem?_replicate] at hnone
      split at hnone <;> cases hnone

theorem size_assign {line : Nat} {layer : LayerId} {id : ObjectId}
    (h : assign table line layer assignment id = .ok assignment') :
    assignment'.size = assignment.size := by
  rw [assign] at h
  split at h
  · cases h
    exact Array.size_setIfInBounds
  · split at h <;> cases h
    rfl

theorem size_assignName {line : Nat} {layer : LayerId} {name : String}
    (h : assignName table line layer assignment name = .ok assignment') :
    assignment'.size = assignment.size := by
  obtain ⟨meaning, -, h⟩ := bind_eq_ok_iff.mp h
  exact foldlM_ok_induction (P := fun a ↦ a.size = assignment.size)
    (fun _ _ _ _ hstep hsize ↦ (size_assign hstep).trans hsize) h rfl

theorem size_assignLayer {declaration : LayerDeclaration × Nat}
    (h : assignLayer table assignment declaration = .ok assignment') :
    assignment'.size = assignment.size := by
  rw [assignLayer] at h
  split at h
  · simp at h
  · exact foldlM_ok_induction (P := fun a ↦ a.size = assignment.size)
      (fun _ _ _ _ hstep hsize ↦ (size_assignName hstep).trans hsize) h rfl

theorem size_build {layers : List LayerDeclaration} (h : build table layers = .ok assignment) :
    assignment.size = table.objects.size :=
  foldlM_ok_induction (P := fun a ↦ a.size = table.objects.size)
    (fun _ _ _ _ hstep hsize ↦ (size_assignLayer hstep).trans hsize) h Array.size_replicate

end LayerAssignment

/-! ## Objects with their layers -/

/-- The arena of a game: object `k` has number `k` and stands on one of its layers. -/
structure Template.Placed (layerCount : Nat) (objects : Array Template) : Prop where
  size_le : objects.size ≤ ObjectId.bound
  layerCount_le : layerCount ≤ LayerId.bound
  index_id : ∀ (k : Nat) (template : Template), objects[k]? = some template → template.id.index = k
  layer_lt : ∀ (k : Nat) (template : Template), objects[k]? = some template →
    template.layer.index < layerCount

theorem UnplacedObject.withLayer_eq_ok {object : UnplacedObject} {layer : Option LayerId}
    {place : Nat} {template : Template} (h : object.withLayer layer place = .ok template) :
    template.id = .ofIndex place ∧ layer = some template.layer ∧
      template.identifier = object.identifier ∧ template.aliases = object.aliases := by
  cases layer with
  | none => cases h
  | some layer => cases h; exact ⟨rfl, rfl, rfl, rfl⟩

theorem SymbolTable.getElem?_zipIdx_zip {objects : Array UnplacedObject}
    {assignment : LayerAssignment} {k place : Nat} {object : UnplacedObject}
    {layer : Option LayerId} :
    (objects.toList.zip assignment.toList).zipIdx[k]? = some ((object, layer), place) ↔
      objects[k]? = some object ∧ assignment[k]? = some layer ∧ place = k := by
  rw [List.getElem?_zipIdx, Option.map_eq_some_iff]
  constructor
  · rintro ⟨pair, hpair, heq⟩
    obtain ⟨rfl, rfl⟩ := Prod.mk.inj heq
    rw [List.getElem?_zip_eq_some, Array.getElem?_toList, Array.getElem?_toList] at hpair
    exact ⟨hpair.1, hpair.2, Nat.zero_add k⟩
  · rintro ⟨hobject, hlayer, rfl⟩
    refine ⟨(object, layer), ?_, by rw [Nat.zero_add]⟩
    rw [List.getElem?_zip_eq_some, Array.getElem?_toList, Array.getElem?_toList]
    exact ⟨hobject, hlayer⟩

theorem SymbolTable.templates_eq_ok {table : SymbolTable} {layers : List LayerDeclaration}
    {objects : Array Template} (h : table.templates layers = .ok objects) :
    ∃ assignment, LayerAssignment.build table layers = .ok assignment ∧
      objects.size = table.objects.size ∧
      ∀ (k : Nat) (template : Template), objects[k]? = some template →
        template.id = .ofIndex k ∧ assignment[k]? = some (some template.layer) ∧
          ∃ object, table.objects[k]? = some object ∧
            template.identifier = object.identifier ∧ template.aliases = object.aliases := by
  obtain ⟨assignment, hassignment, h⟩ := bind_eq_ok_iff.mp h
  obtain ⟨templates, htemplates, h⟩ := bind_eq_ok_iff.mp h
  obtain rfl := pure_eq_ok_iff.mp h
  refine ⟨assignment, hassignment, ?_, fun k template hk ↦ ?_⟩
  · have hlength := length_of_mapM_eq_ok htemplates
    simp only [List.length_zipIdx, List.length_zip, Array.length_toList] at hlength
    rw [LayerAssignment.size_build hassignment, Nat.min_self] at hlength
    rw [List.size_toArray, hlength]
  · rw [List.getElem?_toArray] at hk
    obtain ⟨⟨⟨object, layer⟩, place⟩, hfound, hlayer⟩ := getElem?_of_mapM_eq_ok htemplates hk
    obtain ⟨hobject, hassigned, rfl⟩ := getElem?_zipIdx_zip.mp hfound
    obtain ⟨hid, rfl, hnames⟩ := UnplacedObject.withLayer_eq_ok hlayer
    exact ⟨hid, hassigned, object, hobject, hnames⟩

/-- **Every object gets its number and its layer.** -/
theorem SymbolTable.placed_of_templates {table : SymbolTable} (htable : table.IsClosed)
    {layers : List LayerDeclaration} {objects : Array Template}
    (h : table.templates layers = .ok objects) :
    objects.size = table.objects.size ∧ Template.Placed layers.length objects := by
  obtain ⟨assignment, hassignment, hsize, hplace⟩ := SymbolTable.templates_eq_ok h
  obtain ⟨hlayers, hwithin⟩ := LayerAssignment.within_of_build hassignment
  have hbound : objects.size ≤ ObjectId.bound := hsize.symm ▸ htable.size_le
  refine ⟨hsize, hbound, hlayers, fun k template hk ↦ ?_, fun k template hk ↦ ?_⟩
  · have hlt := (Array.getElem?_eq_some_iff.mp hk).1
    rw [(hplace k template hk).1, ObjectId.index_ofIndex (Nat.lt_of_lt_of_le hlt hbound)]
  · exact hwithin k template.layer (hplace k template hk).2.1

end TilePuzzle
