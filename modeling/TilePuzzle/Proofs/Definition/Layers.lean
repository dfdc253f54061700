import Mathlib.Data.Nat.Find
import TilePuzzle.Proofs.Definition.Legend

/-!
# One layer line for each object

A layer line covers the objects that its names may stand for. Every object gets a layer just if
exactly one line covers it. Otherwise it is known which error is reported: two lines that cover an
object come first, then the first object without a line.

## The invariant

The lines are taken up one after the other, and at any time an object has the layer of the line so
far that covers it (`Reflects`, with `givenBy` for the lines so far). The next line gives its layer
to all objects that it covers, unless one of them has a line already; then it is refused
(`Reflects.assignLayer_cases`).

## Objects without a line

Only when all lines are taken up are the objects put on their layers, in the order of their
declarations, so an object without a line is not noticed before. That is why the two errors come in
this order.
-/

namespace TilePuzzle

/-! ## Lines and the objects they cover -/

/-- One of the names of a layer line may stand for an object. -/
def LayerDeclaration.Covers (layer : LayerDeclaration) (legend : Legend) (id : ObjectId) : Prop :=
  ∃ name ∈ layer.names, ∃ meaning, legend.lookup? name = some meaning ∧ id ∈ meaning.objects.ids

/-- The layer line in a given place covers an object. -/
def Legend.Covers (legend : Legend) (layers : List LayerDeclaration) (place : Nat)
    (id : ObjectId) : Prop :=
  ∃ layer, layers[place]? = some layer ∧ layer.Covers legend id

/-- The objects that a layer line covers, name by name. -/
def LayerDeclaration.covered (layer : LayerDeclaration) (legend : Legend) : List ObjectId :=
  layer.names.flatMap fun name ↦
    ((legend.lookup? name).map fun meaning ↦ meaning.objects.ids).getD []

theorem LayerDeclaration.mem_covered {layer : LayerDeclaration} {legend : Legend} {id : ObjectId} :
    id ∈ layer.covered legend ↔ layer.Covers legend id := by
  rw [covered, List.mem_flatMap]
  refine exists_congr fun name ↦ and_congr_right fun _ ↦ ?_
  cases legend.lookup? name with
  | none => exact iff_of_false List.not_mem_nil nofun
  | some meaning => simp

theorem LayerDeclaration.Covers.lt_size {layer : LayerDeclaration} {table : SymbolTable}
    {id : ObjectId} (h : layer.Covers table.legend id) (htable : table.IsClosed) :
    id.index < table.objects.size := by
  obtain ⟨name, -, meaning, hmeaning, hid⟩ := h
  exact (htable.within.lookup? hmeaning).objects id hid

namespace Legend

variable {legend : Legend} {front : List LayerDeclaration} {layer : LayerDeclaration}
  {place : Nat} {id : ObjectId}

theorem Covers.lt_length {layers : List LayerDeclaration} (h : legend.Covers layers place id) :
    place < layers.length := by
  obtain ⟨layer, hlayer, -⟩ := h
  exact (List.getElem?_eq_some_iff.mp hlayer).1

theorem Covers.append (h : legend.Covers front place id) (back : List LayerDeclaration) :
    legend.Covers (front ++ back) place id := by
  obtain ⟨layer, hlayer, hcovers⟩ := h
  refine ⟨layer, ?_, hcovers⟩
  rw [List.getElem?_append_left (List.getElem?_eq_some_iff.mp hlayer).1, hlayer]

theorem covers_length (h : layer.Covers legend id) (back : List LayerDeclaration) :
    legend.Covers (front ++ layer :: back) front.length id := by
  refine ⟨layer, ?_, h⟩
  simp

theorem covers_concat : legend.Covers (front ++ [layer]) place id ↔
    legend.Covers front place id ∨ layer.Covers legend id ∧ place = front.length := by
  simp only [Covers, getElem?_concat_eq_some_iff]
  constructor
  · rintro ⟨found, hfound | ⟨hplace, rfl⟩, hcovers⟩
    · exact .inl ⟨found, hfound, hcovers⟩
    · exact .inr ⟨hcovers, hplace⟩
  · rintro (⟨found, hfound, hcovers⟩ | ⟨hcovers, hplace⟩)
    · exact ⟨found, .inl hfound, hcovers⟩
    · exact ⟨layer, .inr ⟨hplace, rfl⟩, hcovers⟩

end Legend

/-! ## Taking up the lines -/

namespace LayerAssignment

variable {table : SymbolTable} {assignment : LayerAssignment} {given : ObjectId → LayerId → Prop}
  {count : Nat} {layer : LayerId} {id : ObjectId}

/-- The layers found so far are the given ones. -/
structure Reflects (assignment : LayerAssignment) (count : Nat)
    (given : ObjectId → LayerId → Prop) : Prop where
  size_eq : assignment.size = count
  join_eq_iff : ∀ id layer, assignment[id.index]?.join = some layer ↔ given id layer

theorem Reflects.congr {given' : ObjectId → LayerId → Prop} (h : assignment.Reflects count given)
    (hgiven : ∀ id layer, given id layer ↔ given' id layer) : assignment.Reflects count given' :=
  ⟨h.size_eq, fun id layer ↦ (h.join_eq_iff id layer).trans (hgiven id layer)⟩

theorem Reflects.unique (h : assignment.Reflects count given) {layer' : LayerId}
    (hlayer : given id layer) (hlayer' : given id layer') : layer = layer' := by
  rw [← h.join_eq_iff] at hlayer hlayer'
  exact Option.some.inj (hlayer.symm.trans hlayer')

/-- An object gets a layer unless it has another one. -/
theorem Reflects.assign_cases (table : SymbolTable) (line : Nat) (layer : LayerId)
    (h : assignment.Reflects count given) (hid : id.index < count) :
    (∃ assignment', assign table line layer assignment id = .ok assignment' ∧
        assignment'.Reflects count fun other found ↦
          given other found ∨ other = id ∧ found = layer) ∨
      ∃ present, present ≠ layer ∧ given id present ∧ assign table line layer assignment id =
        .error (.multipleLayers line
          ((table.objects[id.index]?.map UnplacedObject.identifier).getD "")) := by
  rw [assign]
  rcases hpresent : assignment[id.index]?.join with _ | present
  · refine .inl ⟨_, rfl, ?_, fun other found ↦ ?_⟩
    · rw [Array.size_setIfInBounds, h.size_eq]
    · rw [Array.getElem?_setIfInBounds]
      by_cases hother : id.index = other.index
      · obtain rfl := ObjectId.index_inj.mp hother
        have hnone : ¬given id found := by
          rw [← h.join_eq_iff, hpresent]
          exact (Option.some_ne_none found).symm
        rw [if_pos rfl, if_pos (h.size_eq.symm ▸ hid), or_iff_right hnone, and_iff_right rfl]
        exact ⟨fun hsame ↦ (Option.some.inj hsame).symm, fun hsame ↦ congrArg some hsame.symm⟩
      · rw [if_neg hother, h.join_eq_iff, or_iff_left]
        rintro ⟨rfl, -⟩
        exact hother rfl
  · have hgiven : given id present := (h.join_eq_iff id present).mp hpresent
    by_cases hsame : present = layer
    · refine .inl ⟨assignment, if_pos hsame, h.congr fun other found ↦ ?_⟩
      refine (or_iff_left_of_imp ?_).symm
      rintro ⟨rfl, rfl⟩
      exact hsame ▸ hgiven
    · exact .inr ⟨present, hsame, hgiven, if_neg hsame⟩

theorem Reflects.foldlM_assign_cases (table : SymbolTable) (line : Nat) (layer : LayerId)
    (h : assignment.Reflects count given) (ids : List ObjectId)
    (hids : ∀ id ∈ ids, id.index < count) :
    (∃ assignment', ids.foldlM (assign table line layer) assignment = .ok assignment' ∧
        assignment'.Reflects count fun other found ↦
          given other found ∨ other ∈ ids ∧ found = layer) ∨
      ∃ id ∈ ids, ∃ present, present ≠ layer ∧ given id present ∧
        ids.foldlM (assign table line layer) assignment = .error (.multipleLayers line
          ((table.objects[id.index]?.map UnplacedObject.identifier).getD "")) := by
  have hcases := foldlM_cases (f := assign table line layer)
    (P := fun front (assignment : LayerAssignment) ↦ assignment.Reflects count fun other found ↦
      given other found ∨ other ∈ front ∧ found = layer)
    (Q := fun _ id error ↦ ∃ present, present ≠ layer ∧ given id present ∧
      error = .multipleLayers line
        ((table.objects[id.index]?.map UnplacedObject.identifier).getD ""))
    ids (s := assignment) ?step ?start
  case step =>
    rintro front id back before hsplit hbefore
    have hid : id.index < count := hids id (hsplit ▸ List.mem_append_right _ List.mem_cons_self)
    rcases hbefore.assign_cases table line layer hid with
      ⟨after, hafter, hreflects⟩ | ⟨present, hne, hpresent, herror⟩
    · refine .inl ⟨after, hafter, hreflects.congr fun other found ↦ ?_⟩
      rw [List.mem_append, List.mem_singleton, or_assoc, or_and_right]
    · -- an object of the line itself has the layer of the line
      refine .inr ⟨_, herror, present, hne, hpresent.resolve_right fun hown ↦ hne hown.2, rfl⟩
  case start =>
    exact h.congr fun other found ↦ (or_iff_left fun hmem ↦ List.not_mem_nil hmem.1).symm
  rcases hcases with hok | ⟨front, id, back, error, herror, hsplit, present, hne, hpresent, rfl⟩
  · exact .inl hok
  · exact .inr ⟨id, hsplit ▸ List.mem_append_right _ List.mem_cons_self, present, hne, hpresent,
      herror⟩

/-- Taking up a line whose names are defined is giving its layer to the objects it covers. -/
theorem assignLayer_eq {declaration : LayerDeclaration} {place : Nat}
    (hplace : place < LayerId.bound)
    (hnames : ∀ name ∈ declaration.names, (table.legend.lookup? name).isSome = true)
    (assignment : LayerAssignment) : assignLayer table assignment (declaration, place) =
      (declaration.covered table.legend).foldlM
        (assign table declaration.line (.ofIndex place)) assignment := by
  have hmax : ¬maxLayers < place := by
    rw [LayerId.bound] at hplace
    rw [maxLayers]
    omega
  rw [assignLayer, if_neg hmax, LayerDeclaration.covered]
  generalize declaration.names = names at hnames
  induction names generalizing assignment with
  | nil => rfl
  | cons name names ih =>
    rw [List.forall_mem_cons] at hnames
    obtain ⟨meaning, hmeaning⟩ := Option.isSome_iff_exists.mp hnames.1
    rw [List.foldlM_cons, List.flatMap_cons, List.foldlM_append, assignName,
      Legend.resolve_eq_ok_iff.mpr hmeaning, hmeaning]
    exact bind_congr fun after ↦ ih after hnames.2

/-- The layers that the lines give to the objects they cover. -/
def givenBy (legend : Legend) (layers : List LayerDeclaration) (id : ObjectId) (layer : LayerId) :
    Prop := ∃ place, legend.Covers layers place id ∧ layer = .ofIndex place

theorem Reflects.place_unique {legend : Legend} {layers : List LayerDeclaration}
    (h : assignment.Reflects count (givenBy legend layers))
    (hcount : layers.length ≤ LayerId.bound) {place place' : Nat}
    (hplace : legend.Covers layers place id) (hplace' : legend.Covers layers place' id) :
    place = place' := by
  have hsame : LayerId.ofIndex place = .ofIndex place' :=
    h.unique ⟨place, hplace, rfl⟩ ⟨place', hplace', rfl⟩
  rw [← LayerId.index_ofIndex (Nat.lt_of_lt_of_le hplace.lt_length hcount), hsame,
    LayerId.index_ofIndex (Nat.lt_of_lt_of_le hplace'.lt_length hcount)]

theorem Reflects.exists_layer_iff {legend : Legend} {layers : List LayerDeclaration}
    (h : assignment.Reflects count (givenBy legend layers)) (hcount : count ≤ ObjectId.bound)
    {k : Nat} (hk : k < count) : (∃ layer, assignment[k]? = some (some layer)) ↔
      ∃ place, legend.Covers layers place (.ofIndex k) := by
  have hjoin : ∀ layer, assignment[k]? = some (some layer) ↔
      givenBy legend layers (.ofIndex k) layer := by
    intro layer
    rw [← h.join_eq_iff, ObjectId.index_ofIndex (Nat.lt_of_lt_of_le hk hcount)]
    exact Option.join_eq_some_iff.symm
  simp only [hjoin, givenBy]
  rw [exists_comm]
  simp only [exists_and_left, exists_eq, and_true]

theorem Reflects.eq_none_iff {legend : Legend} {layers : List LayerDeclaration}
    (h : assignment.Reflects count (givenBy legend layers)) (hcount : count ≤ ObjectId.bound)
    {k : Nat} (hk : k < count) : assignment[k]? = some none ↔
      ∀ place, ¬legend.Covers layers place (.ofIndex k) := by
  rw [← not_exists, ← h.exists_layer_iff hcount hk]
  rw [← h.size_eq] at hk
  rw [Array.getElem?_eq_getElem hk, Option.some.injEq]
  cases assignment[k] with
  | none => exact iff_of_true rfl nofun
  | some layer => exact iff_of_false nofun fun hnone ↦ hnone ⟨layer, rfl⟩

theorem reflects_replicate (legend : Legend) (count : Nat) :
    Reflects (.replicate count none) count (givenBy legend []) := by
  refine ⟨Array.size_replicate, fun id layer ↦ ?_⟩
  rw [Array.getElem?_replicate]
  refine iff_of_false ?_ ?_
  · split <;> nofun
  · rintro ⟨place, ⟨declaration, hdeclaration, -⟩, -⟩
    rw [List.getElem?_nil] at hdeclaration
    cases hdeclaration

/-- The next line gives its layer to the objects it covers unless one of them has a line. -/
theorem Reflects.assignLayer_cases (htable : table.IsClosed) {front : List LayerDeclaration}
    (h : assignment.Reflects table.objects.size (givenBy table.legend front))
    {declaration : LayerDeclaration} (hplace : front.length < LayerId.bound)
    (hnames : ∀ name ∈ declaration.names, (table.legend.lookup? name).isSome = true) :
    (∃ assignment', assignLayer table assignment (declaration, front.length) = .ok assignment' ∧
        assignment'.Reflects table.objects.size
          (givenBy table.legend (front ++ [declaration]))) ∨
      ∃ id, declaration.Covers table.legend id ∧
        (∃ place, table.legend.Covers front place id) ∧
        assignLayer table assignment (declaration, front.length) =
          .error (.multipleLayers declaration.line
            ((table.objects[id.index]?.map UnplacedObject.identifier).getD "")) := by
  have hids : ∀ id ∈ declaration.covered table.legend, id.index < table.objects.size :=
    fun id hid ↦ (LayerDeclaration.mem_covered.mp hid).lt_size htable
  rw [assignLayer_eq hplace hnames]
  rcases h.foldlM_assign_cases table declaration.line (.ofIndex front.length) _ hids with
    ⟨after, hafter, hreflects⟩ | ⟨id, hid, present, -, ⟨place, hcovers, -⟩, herror⟩
  · refine .inl ⟨after, hafter, hreflects.congr fun id found ↦ ?_⟩
    simp only [givenBy, Legend.covers_concat, LayerDeclaration.mem_covered, or_and_right,
      exists_or, and_assoc, exists_and_left, exists_eq_left]
  · exact .inr ⟨id, LayerDeclaration.mem_covered.mp hid, ⟨place, hcovers⟩, herror⟩

/-- **Layers are given as the lines cover objects.** The lines give just the layers of the lines
that cover an object, unless one of them covers an object of an earlier line. The first such line is
refused. -/
theorem build_cases (htable : table.IsClosed) {layers : List LayerDeclaration}
    (hcount : layers.length ≤ LayerId.bound) (hnames : ∀ layer ∈ layers, ∀ name ∈ layer.names,
      (table.legend.lookup? name).isSome = true) :
    (∃ assignment, build table layers = .ok assignment ∧
        assignment.Reflects table.objects.size (givenBy table.legend layers)) ∨
      ∃ front layer back id, layers = front ++ layer :: back ∧ layer.Covers table.legend id ∧
        (∃ place, table.legend.Covers front place id) ∧
        (∀ other a b, table.legend.Covers front a other → table.legend.Covers front b other →
          a = b) ∧
        build table layers = .error (.multipleLayers layer.line
          ((table.objects[id.index]?.map UnplacedObject.identifier).getD "")) := by
  have hcases := foldlM_zipIdx_cases (f := assignLayer table)
    (P := fun front (assignment : LayerAssignment) ↦
      assignment.Reflects table.objects.size (givenBy table.legend front))
    (Q := fun front layer error ↦ ∃ id, layer.Covers table.legend id ∧
      (∃ place, table.legend.Covers front place id) ∧
      (∀ other a b, table.legend.Covers front a other → table.legend.Covers front b other →
        a = b) ∧
      error = .multipleLayers layer.line
        ((table.objects[id.index]?.map UnplacedObject.identifier).getD ""))
    layers ?step (reflects_replicate table.legend table.objects.size)
  case step =>
    rintro front layer back before hsplit hbefore
    have hmem : layer ∈ layers := hsplit ▸ List.mem_append_right front List.mem_cons_self
    have hplace : front.length < LayerId.bound := by
      rw [hsplit, List.length_append, List.length_cons] at hcount
      omega
    refine (hbefore.assignLayer_cases htable hplace (hnames layer hmem)).imp_right ?_
    rintro ⟨id, hid, hearlier, herror⟩
    refine ⟨_, herror, id, hid, hearlier, fun other a b ha hb ↦ ?_, rfl⟩
    exact hbefore.place_unique (Nat.le_of_lt hplace) ha hb
  rcases hcases with hok | ⟨front, layer, back, error, herror, hsplit, id, hid, hearlier, hfirst,
    rfl⟩
  · exact .inl hok
  · exact .inr ⟨front, layer, back, id, hsplit, hid, hearlier, hfirst, herror⟩

end LayerAssignment

/-! ## Objects on their layers -/

/-- Where and under which name an object is declared. -/
def ObjectDeclaration.heading (declaration : ObjectDeclaration) : Nat × String :=
  (declaration.line, declaration.name)

/-- Where and under which name an object was declared. -/
def UnplacedObject.heading (object : UnplacedObject) : Nat × String :=
  (object.line, object.identifier)

namespace SymbolTable

variable {table : SymbolTable} {layers : List LayerDeclaration} {assignment : LayerAssignment}

theorem withLayer_eq_error_iff {object : UnplacedObject} {layer : Option LayerId} {place : Nat}
    {error : DefinitionError} : object.withLayer layer place = .error error ↔
      layer = none ∧ error = .missingLayer object.line object.identifier := by
  cases layer with
  | none => exact ⟨fun h ↦ ⟨rfl, (Except.error.inj h).symm⟩, fun h ↦ congrArg Except.error h.2.symm⟩
  | some layer => exact iff_of_false nofun nofun

theorem templates_eq_error_iff (h : LayerAssignment.build table layers = .ok assignment)
    {error : DefinitionError} : table.templates layers = .error error ↔
      ∃ (k : Nat) (object : UnplacedObject), table.objects[k]? = some object ∧
        assignment[k]? = some none ∧ error = .missingLayer object.line object.identifier ∧
        ∀ j < k, ∃ layer, assignment[j]? = some (some layer) := by
  have hsize : assignment.size = table.objects.size := LayerAssignment.size_build h
  constructor
  · intro herror
    rcases bind_eq_error_iff.mp herror with herror | ⟨found, hfound, herror⟩
    · rw [h] at herror
      cases herror
    obtain rfl := Except.ok.inj (h.symm.trans hfound)
    rcases bind_eq_error_iff.mp herror with herror | ⟨templates, -, herror⟩
    · obtain ⟨k, ⟨⟨object, layer⟩, place⟩, hk, herror, hbefore⟩ :=
        mapM_eq_error_iff_getElem?.mp herror
      obtain ⟨hobject, hlayer, rfl⟩ := getElem?_zipIdx_zip.mp hk
      obtain ⟨rfl, rfl⟩ := withLayer_eq_error_iff.mp herror
      refine ⟨place, object, hobject, hlayer, rfl, fun j hj ↦ ?_⟩
      have hlt : j < table.objects.size :=
        Nat.lt_trans hj (Array.getElem?_eq_some_iff.mp hobject).1
      have hassigned := Array.getElem?_eq_getElem (hsize.symm ▸ hlt)
      obtain ⟨template, htemplate⟩ := hbefore j ((table.objects[j], assignment[j]), j) hj
        (getElem?_zipIdx_zip.mpr ⟨Array.getElem?_eq_getElem hlt, hassigned, rfl⟩)
      obtain ⟨-, hlayer', -⟩ := UnplacedObject.withLayer_eq_ok htemplate
      exact ⟨template.layer, hlayer' ▸ hassigned⟩
    · cases herror
  · rintro ⟨k, object, hobject, hlayer, rfl, hbefore⟩
    refine bind_eq_error_iff.mpr (.inr ⟨assignment, h, bind_eq_error_iff.mpr (.inl ?_)⟩)
    refine mapM_eq_error_iff_getElem?.mpr ⟨k, ((object, none), k),
      getElem?_zipIdx_zip.mpr ⟨hobject, hlayer, rfl⟩, withLayer_eq_error_iff.mpr ⟨rfl, rfl⟩, ?_⟩
    rintro j ⟨⟨other, found⟩, place⟩ hj hfound
    obtain ⟨-, hfound, -⟩ := getElem?_zipIdx_zip.mp hfound
    obtain ⟨layer, hother⟩ := hbefore j hj
    obtain rfl := Option.some.inj (hfound.symm.trans hother)
    exact ⟨_, rfl⟩

/-! ## Declarations -/

theorem map_heading_addAlias (objects : Array UnplacedObject) (symbol : String)
    (meaning : Meaning) : (addAlias objects symbol meaning).toList.map UnplacedObject.heading =
      objects.toList.map UnplacedObject.heading := by
  cases meaning with
  | property members => rfl
  | aggregate members => rfl
  | object id =>
    rw [addAlias, Array.toList_modify]
    refine List.ext_getElem? fun k ↦ ?_
    rw [List.getElem?_map, List.getElem?_map, List.getElem?_modify]
    rcases objects.toList[k]? with _ | object
    · rfl
    · refine congrArg some ?_
      dsimp only
      split <;> rfl

theorem map_heading_of_build {declarations : List ObjectDeclaration}
    {definitions : List LegendDefinition} (h : (build declarations definitions).Gives table) :
    table.objects.toList.map UnplacedObject.heading =
      declarations.map ObjectDeclaration.heading := by
  obtain ⟨named, hnamed, htable⟩ := build_gives_iff.mp h
  have hobjects : named.objects.toList.map UnplacedObject.heading =
      declarations.map ObjectDeclaration.heading := by
    refine foldlM_ok_concat (P := fun front table ↦
      table.objects.toList.map UnplacedObject.heading = front.map ObjectDeclaration.heading)
      hnamed ?_ rfl
    intro front declaration before after hadd hbefore
    obtain ⟨legend, appearance, -, rfl⟩ := addObjectResult_eq_ok hadd
    rw [Array.toList_push, List.map_append, List.map_append, hbefore]
    rfl
  refine foldlM_ok_induction (P := fun table ↦ table.objects.toList.map UnplacedObject.heading =
    declarations.map ObjectDeclaration.heading) ?_ htable hobjects
  intro before definition after _ hadd hbefore
  obtain ⟨meaning, -, -, rfl⟩ := addDefinition_eq_ok hadd
  rw [← hbefore, map_heading_addAlias]

theorem exists_declaration_of_build {declarations : List ObjectDeclaration}
    {definitions : List LegendDefinition} (h : (build declarations definitions).Gives table)
    {k : Nat} {object : UnplacedObject} (hobject : table.objects[k]? = some object) :
    ∃ declaration, declarations[k]? = some declaration ∧ declaration.line = object.line ∧
      declaration.name = object.identifier := by
  have hheading := congrArg (·[k]?) (map_heading_of_build h)
  rw [List.getElem?_map, List.getElem?_map, Array.getElem?_toList, hobject] at hheading
  obtain ⟨declaration, hdeclaration, heq⟩ := Option.map_eq_some_iff.mp hheading.symm
  exact ⟨declaration, hdeclaration, (Prod.mk.inj heq).1, (Prod.mk.inj heq).2⟩

theorem size_objects_of_build {declarations : List ObjectDeclaration}
    {definitions : List LegendDefinition} (h : (build declarations definitions).Gives table) :
    table.objects.size = declarations.length := by
  have hlength := congrArg List.length (map_heading_of_build h)
  rwa [List.length_map, List.length_map, Array.length_toList] at hlength

/-! ## Which objects get a layer -/

section Coverage

variable (htable : table.IsClosed) (hcount : layers.length ≤ LayerId.bound)
  (hnames : ∀ layer ∈ layers, ∀ name ∈ layer.names, (table.legend.lookup? name).isSome = true)

include htable hcount hnames

theorem covers_of_templates {objects : Array Template} (h : table.templates layers = .ok objects)
    {k : Nat} {template : Template} (hk : objects[k]? = some template) :
    table.legend.Covers layers template.layer.index (.ofIndex k) := by
  obtain ⟨assignment, hassignment, hsize, hplace⟩ := templates_eq_ok h
  rcases LayerAssignment.build_cases htable hcount hnames with
    ⟨found, hfound, hreflects⟩ | ⟨front, layer, back, id, -, -, -, -, herror⟩
  · obtain rfl := Except.ok.inj (hassignment.symm.trans hfound)
    have hlt : k < ObjectId.bound :=
      Nat.lt_of_lt_of_le (hsize ▸ (Array.getElem?_eq_some_iff.mp hk).1) htable.size_le
    have hlayer : assignment[(ObjectId.ofIndex k).index]?.join = some template.layer := by
      rw [ObjectId.index_ofIndex hlt, (hplace k template hk).2.1]
      rfl
    obtain ⟨place, hcovers, heq⟩ := (hreflects.join_eq_iff _ _).mp hlayer
    rw [heq, LayerId.index_ofIndex (Nat.lt_of_lt_of_le hcovers.lt_length hcount)]
    exact hcovers
  · rw [hassignment] at herror
    cases herror

/-- If no object has two lines, the objects have layers up to the first that has no line. -/
theorem templates_eq_error_iff_uncovered
    (hsingle : ∀ id a b, table.legend.Covers layers a id → table.legend.Covers layers b id → a = b)
    {error : DefinitionError} : table.templates layers = .error error ↔
      ∃ (k : Nat) (object : UnplacedObject), table.objects[k]? = some object ∧
        (∀ place, ¬table.legend.Covers layers place (.ofIndex k)) ∧
        error = .missingLayer object.line object.identifier ∧
        ∀ j < k, ∃ place, table.legend.Covers layers place (.ofIndex j) := by
  rcases LayerAssignment.build_cases htable hcount hnames with
    ⟨assignment, hassignment, hreflects⟩ |
    ⟨front, layer, back, id, rfl, hid, ⟨place, hearlier⟩, -, -⟩
  · rw [templates_eq_error_iff hassignment]
    refine exists_congr fun k ↦ exists_congr fun object ↦ and_congr_right fun hobject ↦ ?_
    have hk : k < table.objects.size := (Array.getElem?_eq_some_iff.mp hobject).1
    rw [hreflects.eq_none_iff htable.size_le hk]
    refine and_congr_right' (and_congr_right' (forall₂_congr fun j hj ↦ ?_))
    exact hreflects.exists_layer_iff htable.size_le (Nat.lt_trans hj hk)
  · have hsame := hsingle id place front.length (hearlier.append _) (Legend.covers_length hid back)
    exact absurd hsame (Nat.ne_of_lt hearlier.lt_length)

/-- If an object has two lines, the first line that covers an object of an earlier one is refused,
with the name of such an object. -/
theorem templates_eq_error_of_covers {id : ObjectId} {a b : Nat}
    (ha : table.legend.Covers layers a id) (hb : table.legend.Covers layers b id) (hne : a ≠ b) :
    ∃ front layer back other, layers = front ++ layer :: back ∧ layer.Covers table.legend other ∧
      (∃ place, table.legend.Covers front place other) ∧
      (∀ id a b, table.legend.Covers front a id → table.legend.Covers front b id → a = b) ∧
      table.templates layers = .error (.multipleLayers layer.line
        ((table.objects[other.index]?.map UnplacedObject.identifier).getD "")) := by
  rcases LayerAssignment.build_cases htable hcount hnames with
    ⟨assignment, hassignment, hreflects⟩ |
    ⟨front, layer, back, other, hsplit, hother, hearlier, hfront, herror⟩
  · exact absurd (hreflects.place_unique hcount ha hb) hne
  · exact ⟨front, layer, back, other, hsplit, hother, hearlier, hfront,
      bind_eq_error_iff.mpr (.inl herror)⟩

theorem exists_templates_iff : (∃ objects, table.templates layers = .ok objects) ↔
    ∀ k < table.objects.size, ∃! place, table.legend.Covers layers place (.ofIndex k) := by
  by_cases hsingle : ∀ id a b, table.legend.Covers layers a id → table.legend.Covers layers b id →
    a = b
  · rw [exists_eq_ok_iff]
    simp only [ne_eq, templates_eq_error_iff_uncovered htable hcount hnames hsingle]
    constructor
    · intro hnone k hk
      by_contra hunique
      have huncovered : ∃ k < table.objects.size,
          ∀ place, ¬table.legend.Covers layers place (.ofIndex k) :=
        ⟨k, hk, fun place hplace ↦ hunique ⟨place, hplace, fun other hother ↦
          hsingle _ other place hother hplace⟩⟩
      classical
      obtain ⟨hlt, hfirst⟩ := Nat.find_spec huncovered
      refine hnone _ ⟨_, _, Array.getElem?_eq_getElem hlt, hfirst, rfl, fun j hj ↦ ?_⟩
      by_contra hj'
      exact Nat.find_min huncovered hj ⟨Nat.lt_trans hj hlt, not_exists.mp hj'⟩
    · rintro hall error ⟨k, object, hobject, huncovered, -⟩
      obtain ⟨place, hplace, -⟩ := hall k (Array.getElem?_eq_some_iff.mp hobject).1
      exact huncovered place hplace
  · simp only [not_forall] at hsingle
    obtain ⟨id, a, b, ha, hb, hne⟩ := hsingle
    obtain ⟨front, layer, back, other, -, -, -, -, herror⟩ :=
      templates_eq_error_of_covers htable hcount hnames ha hb hne
    refine iff_of_false ?_ fun hall ↦ ?_
    · rintro ⟨objects, hobjects⟩
      rw [herror] at hobjects
      cases hobjects
    · have hid : id.index < table.objects.size := by
        obtain ⟨found, -, hid⟩ := ha
        exact hid.lt_size htable
      obtain ⟨place, -, hunique⟩ := hall id.index hid
      rw [ObjectId.ofIndex_index] at hunique
      exact hne ((hunique a ha).trans (hunique b hb).symm)

end Coverage

/-- **Layer lines are assigned exactly.** Let the names in the layer lines be defined. Then every
object gets a layer just if exactly one line covers it; it is the layer of this line, and a game has
as many layers as there are lines. If some object is covered by two lines, the first line that
covers an object of an earlier one is refused. If there is none, the first object that no line
covers is refused. -/
theorem layers_exact {document : Document}
    (h : (build document.objects document.legend).Gives table)
    (hcount : document.layers.length ≤ LayerId.bound)
    (hnames : ∀ layer ∈ document.layers, ∀ name ∈ layer.names,
      (table.legend.lookup? name).isSome = true) :
    ((∃ objects, table.templates document.layers = .ok objects) ↔
      ∀ k < document.objects.length,
        ∃! place, table.legend.Covers document.layers place (.ofIndex k)) ∧
    (∀ objects, table.templates document.layers = .ok objects →
      objects.size = document.objects.length ∧
      ∀ (k : Nat) (template : Template), objects[k]? = some template →
        table.legend.Covers document.layers template.layer.index (.ofIndex k)) ∧
    (∀ game, Game.ofTable document table = .ok game →
      table.templates document.layers = .ok game.objects ∧
        game.layerCount = document.layers.length) ∧
    ((∃ id a b, a ≠ b ∧ table.legend.Covers document.layers a id ∧
        table.legend.Covers document.layers b id) →
      ∃ front layer back k declaration, document.layers = front ++ layer :: back ∧
        document.objects[k]? = some declaration ∧ layer.Covers table.legend (.ofIndex k) ∧
        (∃ place, table.legend.Covers front place (.ofIndex k)) ∧
        (∀ id a b, table.legend.Covers front a id → table.legend.Covers front b id → a = b) ∧
        table.templates document.layers =
          .error (.multipleLayers layer.line declaration.name)) ∧
    ((∀ id a b, table.legend.Covers document.layers a id →
        table.legend.Covers document.layers b id → a = b) →
      ∀ (k : Nat) (declaration : ObjectDeclaration), document.objects[k]? = some declaration →
        (∀ place, ¬table.legend.Covers document.layers place (.ofIndex k)) →
        (∀ j < k, ∃ place, table.legend.Covers document.layers place (.ofIndex j)) →
        table.templates document.layers =
          .error (.missingLayer declaration.line declaration.name)) := by
  have htable : table.IsClosed := isClosed_of_build h
  have hsize : table.objects.size = document.objects.length := size_objects_of_build h
  refine ⟨?_, fun objects hobjects ↦ ⟨?_, fun k template hk ↦ ?_⟩, fun game hgame ↦ ?_, ?_, ?_⟩
  · rw [← hsize]
    exact exists_templates_iff htable hcount hnames
  · rw [← hsize, (placed_of_templates htable hobjects).1]
  · exact covers_of_templates htable hcount hnames hobjects hk
  · obtain ⟨hobjects, -, hlayers⟩ := Game.ofTable_eq_ok hgame
    exact ⟨hobjects, hlayers⟩
  · rintro ⟨id, a, b, hne, ha, hb⟩
    obtain ⟨front, layer, back, other, hsplit, hother, hearlier, hfirst, herror⟩ :=
      templates_eq_error_of_covers htable hcount hnames ha hb hne
    have hobject := Array.getElem?_eq_getElem (hother.lt_size htable)
    obtain ⟨declaration, hdeclaration, -, hname⟩ := exists_declaration_of_build h hobject
    rw [hobject, Option.map_some, Option.getD_some, ← hname] at herror
    rw [← ObjectId.ofIndex_index other] at hother hearlier
    exact ⟨front, layer, back, other.index, declaration, hsplit, hdeclaration, hother, hearlier,
      hfirst, herror⟩
  · intro hsingle k declaration hk huncovered hbefore
    have hlt : k < table.objects.size := hsize ▸ (List.getElem?_eq_some_iff.mp hk).1
    have hobject := Array.getElem?_eq_getElem hlt
    obtain ⟨found, hfound, hline, hname⟩ := exists_declaration_of_build h hobject
    obtain rfl := Option.some.inj (hk.symm.trans hfound)
    rw [hline, hname]
    exact (templates_eq_error_iff_uncovered htable hcount hnames hsingle).mpr
      ⟨k, _, hobject, huncovered, rfl, hbefore⟩

/-- The depot with two layer lines. The lower one names the wall and the crate twice. -/
def depot : Document where
  settings := []
  objects := depotObjects
  legend := depotLegend
  layers := [⟨13, ["Solid", "Pile"]⟩, ⟨14, ["player"]⟩]
  rules := []
  winConditions := []
  levels := []

/-- In the depot every object has a layer, and so exactly one line covers it. -/
theorem layers_exact_depot : ∃ table, (build depot.objects depot.legend).Gives table ∧
    depot.layers.length ≤ LayerId.bound ∧ (∀ layer ∈ depot.layers, ∀ name ∈ layer.names,
      (table.legend.lookup? name).isSome = true) ∧
    (∃ objects, table.templates depot.layers = .ok objects) ∧
    ∀ k < 3, ∃! place, table.legend.Covers depot.layers place (.ofIndex k) := by
  have htable : (build depot.objects depot.legend).yields .empty (fun table ↦
      (depot.layers.all fun layer ↦ layer.names.all fun name ↦
        (table.legend.lookup? name).isSome) && (table.templates depot.layers).isOk) = true := by
    decide +kernel
  obtain ⟨table, log, hrun, hvalid⟩ := Logged.exists_of_yields htable
  have hgives : (build depot.objects depot.legend).Gives table := ⟨.empty, log, hrun⟩
  rw [Bool.and_eq_true, List.all_eq_true] at hvalid
  have hnames : ∀ layer ∈ depot.layers, ∀ name ∈ layer.names,
      (table.legend.lookup? name).isSome = true :=
    fun layer hlayer ↦ List.all_eq_true.mp (hvalid.1 layer hlayer)
  have hcount : depot.layers.length ≤ LayerId.bound := by decide
  have hobjects : ∃ objects, table.templates depot.layers = .ok objects := by
    rcases hresult : table.templates depot.layers with error | objects
    · rw [hresult] at hvalid
      cases hvalid.2
    · exact ⟨objects, rfl⟩
  exact ⟨table, hgives, hcount, hnames, hobjects,
    (layers_exact hgives hcount hnames).1.mp hobjects⟩

end SymbolTable

end TilePuzzle
