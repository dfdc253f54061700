import Mathlib.Data.List.Nodup
import TilePuzzle.Proofs.Definition.Game
import TilePuzzle.Proofs.Loading.Crash

/-!
# One space of names

An object of a game is known in three ways: by its number, by the names that it lists itself, and by
the names that the legend files for it. A declaration and an alias write to all three, and since no
name is filed twice, they agree: the names that the legend files for an object are those that the
object lists, and no name is listed twice.

Names are filed in lower case, so none of this depends on how a name is spelled.

## The invariant

`IsFiled` says so of the tables while they are built. A declaration adds a new object with names
that are new, an alias adds one name on both sides, and a property or an aggregate adds a name that
stands for several objects and is listed by none. Putting the objects on their layers leaves their
names as they are, so the objects and the legend of a finished game still agree.
-/

namespace TilePuzzle

/-! ## Filing a name -/

namespace Legend

variable {legend legend' : Legend} {line : Nat} {meaning : Meaning}

theorem foldlM_define_eq_ok {names : List String}
    (h : names.foldlM (fun legend name ↦ legend.define line name meaning) legend = .ok legend') :
    legend.IsNew (names.map Text.fold) ∧
      ∀ key, legend'[key]? = if key ∈ names.map Text.fold then some meaning else legend[key]? := by
  constructor
  · rcases foldlM_define_cases line meaning names legend with ⟨-, -, hnew, -⟩ | ⟨error, herror, -⟩
    · exact hnew
    · rw [h] at herror
      cases herror
  · refine foldlM_ok_concat (P := fun front (legend' : Legend) ↦ ∀ key, legend'[key]? =
      if key ∈ front.map Text.fold then some meaning else legend[key]?) h ?_ fun key ↦ ?_
    · intro front name before after hdefine hbefore key
      obtain ⟨-, rfl⟩ := define_eq_ok_iff.mp hdefine
      rw [getElem?_insert, hbefore]
      simp only [List.map_append, List.map_singleton, List.mem_append, List.mem_singleton]
      by_cases hkey : Text.fold name = key
      · rw [if_pos hkey, if_pos (.inr hkey.symm)]
      · simp only [hkey, Ne.symm hkey, or_false, if_false]
    · exact (if_neg List.not_mem_nil).symm

end Legend

/-! ## Names that an object lists -/

/-- The names of an object as they are filed. -/
def UnplacedObject.filedNames (object : UnplacedObject) : List String :=
  (object.identifier :: object.aliases).map Text.fold

/-- The names of an object as they are filed. -/
def Template.filedNames (template : Template) : List String :=
  (template.identifier :: template.aliases).map Text.fold

namespace SymbolTable

/-- The legend files for an object just the names that it lists, and it lists none twice. -/
structure IsFiled (table : SymbolTable) : Prop where
  nodup : ∀ (k : Nat) (object : UnplacedObject), table.objects[k]? = some object →
    object.filedNames.Nodup
  getElem?_iff : ∀ (key : String) (id : ObjectId), table.legend[key]? = some (.object id) ↔
    ∃ object, table.objects[id.index]? = some object ∧ key ∈ object.filedNames

theorem isFiled_empty : empty.IsFiled where
  nodup k object h := by
    rw [empty, List.getElem?_toArray, List.getElem?_nil] at h
    cases h
  getElem?_iff key id := by
    have hempty : (∅ : Legend)[key]? = none := Std.TreeMap.getElem?_emptyc
    rw [empty, hempty]
    refine iff_of_false (Option.some_ne_none _).symm ?_
    rintro ⟨object, hobject, -⟩
    rw [List.getElem?_toArray, List.getElem?_nil] at hobject
    cases hobject

variable {table table' : SymbolTable}

/-- A name is filed for an object just if the object lists it. -/
theorem IsFiled.getElem?_iff_mem (h : table.IsFiled) {id : ObjectId} {object : UnplacedObject}
    (hobject : table.objects[id.index]? = some object) (key : String) :
    table.legend[key]? = some (.object id) ↔ key ∈ object.filedNames := by
  rw [h.getElem?_iff]
  constructor
  · rintro ⟨found, hfound, hkey⟩
    rwa [Option.some.inj (hobject.symm.trans hfound)]
  · intro hkey
    exact ⟨object, hobject, hkey⟩

theorem addObjectResult_eq_ok {declaration : ObjectDeclaration}
    (h : table.addObjectResult declaration = .ok table') :
    ∃ legend appearance, table.nameObject declaration = .ok legend ∧
      table' = ⟨table.objects.push
        ⟨declaration.line, declaration.name, declaration.glyphs, appearance⟩, legend⟩ := by
  obtain ⟨legend, hlegend, h⟩ := bind_eq_ok_iff.mp h
  obtain ⟨appearance, -, h⟩ := bind_eq_ok_iff.mp h
  exact ⟨legend, appearance, mapError_eq_ok_iff.mp hlegend, (pure_eq_ok_iff.mp h).symm⟩

theorem nameObject_eq_ok {declaration : ObjectDeclaration} {legend : Legend}
    (h : table.nameObject declaration = .ok legend) :
    table.objects.size < ObjectId.bound ∧ table.legend.IsNew declaration.filedNames ∧
      ∀ key, legend[key]? = if key ∈ declaration.filedNames then
        some (.object (.ofIndex table.objects.size)) else table.legend[key]? := by
  rw [nameObject] at h
  split at h
  · cases h
  · next hsize =>
    refine ⟨?_, Legend.foldlM_define_eq_ok h⟩
    rw [maxObjects] at hsize
    rw [ObjectId.bound]
    omega

theorem IsFiled.addObjectResult (h : table.IsFiled) {declaration : ObjectDeclaration}
    (hadd : table.addObjectResult declaration = .ok table') : table'.IsFiled := by
  obtain ⟨legend, appearance, hlegend, rfl⟩ := addObjectResult_eq_ok hadd
  obtain ⟨hsize, hnew, hget⟩ := nameObject_eq_ok hlegend
  have hindex : (ObjectId.ofIndex table.objects.size).index = table.objects.size :=
    ObjectId.index_ofIndex hsize
  constructor
  case nodup =>
    intro k object hobject
    rw [Array.getElem?_push] at hobject
    split at hobject
    · obtain rfl := Option.some.inj hobject
      exact hnew.1
    · exact h.nodup k object hobject
  case getElem?_iff =>
    intro key id
    dsimp only
    rw [hget, Array.getElem?_push]
    by_cases hid : id.index = table.objects.size
    · -- the new object lists the names that were new
      have hid' : ObjectId.ofIndex table.objects.size = id :=
        ObjectId.index_inj.mp (hindex.trans hid.symm)
      have hold : table.legend[key]? ≠ some (.object id) := by
        rw [ne_eq, h.getElem?_iff, hid, Array.getElem?_eq_none (Nat.le_refl _)]
        rintro ⟨object, hobject, -⟩
        cases hobject
      rw [if_pos hid, hid']
      constructor
      · intro hkey
        split at hkey
        · next hmem => exact ⟨_, rfl, hmem⟩
        · exact absurd hkey hold
      · rintro ⟨object, hobject, hmem⟩
        obtain rfl := Option.some.inj hobject
        exact if_pos hmem
    · -- an old name stays with its object
      rw [if_neg hid, ← h.getElem?_iff]
      split
      · next hmem =>
        refine iff_of_false (fun hkey ↦ ?_) fun hkey ↦ hnew.2 key hmem (Legend.mem_of_getElem? hkey)
        cases hkey
        exact hid hindex
      · rfl

theorem exists_getElem?_of_denote {legend : Legend} {definition : LegendDefinition} {id : ObjectId}
    (h : legend.denote definition = .ok (.object id)) :
    ∃ key : String, legend[key]? = some (Meaning.object id) := by
  rw [Legend.denote] at h
  split at h
  · exact ⟨Text.fold (definition.names.headD ""), Legend.resolve_eq_ok_iff.mp h⟩
  · obtain ⟨parts, -, h⟩ := bind_eq_ok_iff.mp h
    cases pure_eq_ok_iff.mp h
  · obtain ⟨parts, -, h⟩ := bind_eq_ok_iff.mp h
    cases pure_eq_ok_iff.mp h

theorem addDefinition_eq_ok {definition : LegendDefinition}
    (h : table.addDefinition definition = .ok table') :
    ∃ meaning, table.legend.denote definition = .ok meaning ∧
      Text.fold definition.symbol ∉ table.legend ∧
      table' = ⟨addAlias table.objects definition.symbol meaning,
        table.legend.insert (Text.fold definition.symbol) meaning⟩ := by
  obtain ⟨meaning, hmeaning, h⟩ := bind_eq_ok_iff.mp h
  obtain ⟨legend, hlegend, h⟩ := bind_eq_ok_iff.mp h
  obtain ⟨hnew, rfl⟩ := Legend.define_eq_ok_iff.mp hlegend
  exact ⟨meaning, hmeaning, hnew, (pure_eq_ok_iff.mp h).symm⟩

theorem IsFiled.insert (h : table.IsFiled) {name : String} {meaning : Meaning}
    (hmeaning : ∀ id, meaning ≠ .object id) (hnew : name ∉ table.legend) :
    IsFiled ⟨table.objects, table.legend.insert name meaning⟩ where
  nodup := h.nodup
  getElem?_iff key id := by
    dsimp only
    rw [Legend.getElem?_insert, ← h.getElem?_iff]
    split
    · next hkey =>
      refine iff_of_false (fun hsome ↦ hmeaning id (Option.some.inj hsome)) fun hsome ↦ ?_
      exact hnew (hkey ▸ Legend.mem_of_getElem? hsome)
    · rfl

theorem IsFiled.insertAlias (h : table.IsFiled) {symbol : String} {id : ObjectId}
    {object : UnplacedObject} (hobject : table.objects[id.index]? = some object)
    (hnew : Text.fold symbol ∉ table.legend) :
    IsFiled ⟨addAlias table.objects symbol (.object id),
      table.legend.insert (Text.fold symbol) (.object id)⟩ := by
  have hnames : ∀ object : UnplacedObject,
      { object with aliases := object.aliases ++ [symbol] }.filedNames =
        object.filedNames ++ [Text.fold symbol] := by
    intro object
    rw [UnplacedObject.filedNames, UnplacedObject.filedNames, ← List.cons_append, List.map_append,
      List.map_singleton]
  constructor
  case nodup =>
    intro k after hafter
    rw [addAlias, Array.getElem?_modify] at hafter
    split at hafter
    · next hk =>
      subst hk
      rw [hobject] at hafter
      obtain rfl := Option.some.inj hafter
      rw [hnames, List.nodup_append]
      refine ⟨h.nodup id.index object hobject, List.nodup_singleton _, ?_⟩
      intro name hname other hother heq
      rw [List.mem_singleton.mp hother] at heq
      exact hnew (heq ▸ Legend.mem_of_getElem? ((h.getElem?_iff_mem hobject name).mpr hname))
    · exact h.nodup k after hafter
  case getElem?_iff =>
    intro key other
    dsimp only
    rw [Legend.getElem?_insert, addAlias, Array.getElem?_modify]
    by_cases hid : id.index = other.index
    · obtain rfl := ObjectId.index_inj.mp hid
      simp only [if_pos, hobject, Option.map_some, Option.some.injEq, exists_eq_left', hnames,
        List.mem_append, List.mem_singleton, ← h.getElem?_iff_mem hobject key]
      by_cases hkey : Text.fold symbol = key
      · simp [hkey]
      · simp [hkey, Ne.symm hkey]
    · -- the alias is filed for the one object only
      rw [if_neg hid, ← h.getElem?_iff]
      split
      · next hkey =>
        refine iff_of_false (fun hsome ↦ ?_) fun hsome ↦ hnew (hkey ▸ Legend.mem_of_getElem? hsome)
        cases hsome
        exact hid rfl
      · rfl

theorem IsFiled.addDefinition (h : table.IsFiled) {definition : LegendDefinition}
    (hadd : table.addDefinition definition = .ok table') : table'.IsFiled := by
  obtain ⟨meaning, hmeaning, hnew, rfl⟩ := addDefinition_eq_ok hadd
  cases meaning with
  | object id =>
    obtain ⟨key, hkey⟩ := exists_getElem?_of_denote hmeaning
    obtain ⟨object, hobject, -⟩ := (h.getElem?_iff key id).mp hkey
    exact h.insertAlias hobject hnew
  | property members => exact h.insert (fun id ↦ Meaning.noConfusion) hnew
  | aggregate members => exact h.insert (fun id ↦ Meaning.noConfusion) hnew

variable {declarations : List ObjectDeclaration} {definitions : List LegendDefinition}

/-- A table is built from the objects first and then from the legend. -/
theorem build_gives_iff : (build declarations definitions).Gives table ↔
    ∃ named, declarations.foldlM SymbolTable.addObjectResult empty = .ok named ∧
      definitions.foldlM SymbolTable.addDefinition named = .ok table := by
  rw [(returns_build declarations definitions).gives_iff, buildResult, bind_eq_ok_iff]
  simp only [mapError_eq_ok_iff]

/-- **The legend files what the objects list**, whatever the document declares and defines. -/
theorem isFiled_of_build (h : (build declarations definitions).Gives table) : table.IsFiled := by
  obtain ⟨named, hnamed, htable⟩ := build_gives_iff.mp h
  have hfiled : named.IsFiled := foldlM_ok_induction
    (fun _ _ _ _ hadd hbefore ↦ hbefore.addObjectResult hadd) hnamed isFiled_empty
  exact foldlM_ok_induction (fun _ _ _ _ hadd hbefore ↦ hbefore.addDefinition hadd) htable hfiled

theorem map_filedNames_templates {layers : List LayerDeclaration} {objects : Array Template}
    (h : table.templates layers = .ok objects) (k : Nat) :
    objects[k]?.map Template.filedNames = table.objects[k]?.map UnplacedObject.filedNames := by
  obtain ⟨assignment, -, hsize, hplace⟩ := templates_eq_ok h
  rcases htemplate : objects[k]? with _ | template
  · rw [Array.getElem?_eq_none_iff, hsize] at htemplate
    rw [Array.getElem?_eq_none htemplate]
    rfl
  · obtain ⟨-, -, object, hobject, hidentifier, haliases⟩ := hplace k template htemplate
    simp [hobject, Template.filedNames, hidentifier, haliases, UnplacedObject.filedNames]

end SymbolTable

/-! ## Names in a game -/

namespace Game

variable {game : Game}

theorem ofDocument_gives_iff {document : Document} : (ofDocument document).Gives game ↔
    ∃ table, (SymbolTable.build document.objects document.legend).Gives table ∧
      ofTable document table = .ok game := by
  rw [(returns_ofDocument document).gives_iff, ofDocumentResult, bind_eq_ok_iff]
  simp only [mapError_eq_ok_iff, (SymbolTable.returns_build _ _).gives_iff]

/-- The objects and the legend of a game are those of its table, and it has a layer for every layer
line. -/
theorem ofTable_eq_ok {document : Document} {table : SymbolTable}
    (h : ofTable document table = .ok game) :
    table.templates document.layers = .ok game.objects ∧ game.legend = table.legend ∧
      game.layerCount = document.layers.length := by
  obtain ⟨objects, hobjects, h⟩ := bind_eq_ok_iff.mp h
  obtain ⟨player, -, h⟩ := bind_eq_ok_iff.mp h
  obtain ⟨groups, -, h⟩ := bind_eq_ok_iff.mp h
  obtain ⟨conditions, -, h⟩ := bind_eq_ok_iff.mp h
  obtain ⟨levels, -, h⟩ := bind_eq_ok_iff.mp h
  obtain rfl := pure_eq_ok_iff.mp h
  exact ⟨hobjects, rfl, rfl⟩

theorem IsDefined.id_eq (h : game.IsDefined) {id : ObjectId} {template : Template}
    (htemplate : game.template? id = some template) : template.id = id :=
  (h.isClosed.objects.layer? htemplate).1

theorem IsDefined.template?_id (h : game.IsDefined) {template : Template}
    (htemplate : template ∈ game.objects) : game.template? template.id = some template := by
  obtain ⟨k, hk⟩ := Array.mem_iff_getElem?.mp htemplate
  rw [template?, h.isClosed.objects.index_id k template hk, hk]

theorem IsDefined.exists_isFiled (h : game.IsDefined) :
    ∃ table : SymbolTable, table.IsFiled ∧ game.legend = table.legend ∧ ∀ k : Nat,
      game.objects[k]?.map Template.filedNames =
        table.objects[k]?.map UnplacedObject.filedNames := by
  obtain ⟨document, hdocument⟩ := h
  obtain ⟨table, htable, hgame⟩ := ofDocument_gives_iff.mp hdocument
  obtain ⟨hobjects, hlegend, -⟩ := ofTable_eq_ok hgame
  exact ⟨table, SymbolTable.isFiled_of_build htable, hlegend,
    SymbolTable.map_filedNames_templates hobjects⟩

theorem IsDefined.nodup_filedNames (h : game.IsDefined) {id : ObjectId} {template : Template}
    (htemplate : game.template? id = some template) : template.filedNames.Nodup := by
  obtain ⟨table, hfiled, -, hnames⟩ := h.exists_isFiled
  have hlisted := hnames id.index
  rw [template?] at htemplate
  rw [htemplate, Option.map_some] at hlisted
  obtain ⟨object, hobject, heq⟩ := Option.map_eq_some_iff.mp hlisted.symm
  exact heq ▸ hfiled.nodup id.index object hobject

/-- The legend of a game files for an object just the names that the object lists. -/
theorem IsDefined.getElem?_legend_iff (h : game.IsDefined) (key : String) (id : ObjectId) :
    game.legend[key]? = some (.object id) ↔
      ∃ template, game.template? id = some template ∧ key ∈ template.filedNames := by
  obtain ⟨table, hfiled, hlegend, hnames⟩ := h.exists_isFiled
  have hlisted := hnames id.index
  rw [hlegend, hfiled.getElem?_iff, template?]
  constructor
  · rintro ⟨object, hobject, hkey⟩
    rw [hobject, Option.map_some] at hlisted
    obtain ⟨template, htemplate, heq⟩ := Option.map_eq_some_iff.mp hlisted
    exact ⟨template, htemplate, heq ▸ hkey⟩
  · rintro ⟨template, htemplate, hkey⟩
    rw [htemplate, Option.map_some] at hlisted
    obtain ⟨object, hobject, heq⟩ := Option.map_eq_some_iff.mp hlisted.symm
    exact ⟨object, hobject, heq ▸ hkey⟩

theorem IsDefined.lookup?_identifier (h : game.IsDefined) {id : ObjectId} {template : Template}
    (htemplate : game.template? id = some template) {text : String}
    (htext : Text.sameWord template.identifier text = true) :
    game.legend.lookup? text = some (.object id) := by
  rw [Legend.lookup?, ← (Text.sameWord_iff _ _).mp htext, h.getElem?_legend_iff]
  exact ⟨template, htemplate, List.mem_cons_self⟩

theorem IsDefined.eq_of_sameWord (h : game.IsDefined) {a b : ObjectId} {first second : Template}
    (hfirst : game.template? a = some first) (hsecond : game.template? b = some second)
    (hsame : Text.sameWord first.identifier second.identifier = true) : a = b := by
  have hself : Text.sameWord second.identifier second.identifier = true :=
    (Text.sameWord_iff _ _).mpr rfl
  have hdenotes := h.lookup?_identifier hfirst hsame
  rw [h.lookup?_identifier hsecond hself] at hdenotes
  exact (Meaning.object.inj (Option.some.inj hdenotes)).symm

theorem sameWord_of_objectNamed? {text : String} {template : Template}
    (h : game.objectNamed? text = some template) :
    Text.sameWord template.identifier text = true := by
  rw [objectNamed?] at h
  have hfound := Array.find?_some h
  exact hfound

theorem IsDefined.objectNamed?_eq_some_iff (h : game.IsDefined) {text : String}
    {template : Template} : game.objectNamed? text = some template ↔
      game.template? template.id = some template ∧
        Text.sameWord template.identifier text = true := by
  constructor
  · intro hnamed
    exact ⟨h.template?_id (Array.mem_of_find?_eq_some hnamed), sameWord_of_objectNamed? hnamed⟩
  · rintro ⟨htemplate, htext⟩
    rcases hnamed : game.objectNamed? text with _ | other
    · have hnone := Array.find?_eq_none.mp hnamed template (Array.mem_of_getElem? htemplate)
      exact absurd htext hnone
    · -- the first object found has the same identifier
      have hother := h.template?_id (Array.mem_of_find?_eq_some hnamed)
      have hsame : Text.sameWord other.identifier template.identifier = true := by
        rw [Text.sameWord_iff, (Text.sameWord_iff _ _).mp (sameWord_of_objectNamed? hnamed),
          (Text.sameWord_iff _ _).mp htext]
      rw [h.eq_of_sameWord hother htemplate hsame] at hother
      exact hother.symm.trans htemplate

/-- **Names form one space.** No two objects are declared under one name, in whatever case; an
object is found by a text just if the text is its name, and then the text denotes it; and the names
that denote an object are those that it lists, each of them once. -/
theorem IsDefined.names_denote (h : game.IsDefined) :
    (∀ a b first second, game.template? a = some first → game.template? b = some second →
      Text.sameWord first.identifier second.identifier = true → a = b) ∧
    (∀ text template, (game.objectNamed? text = some template ↔
        game.template? template.id = some template ∧
          Text.sameWord template.identifier text = true) ∧
      (game.objectNamed? text = some template →
        game.legend.lookup? text = some (.object template.id))) ∧
    (∀ key id, game.legend[key]? = some (.object id) ↔
      ∃ template, game.template? id = some template ∧ key ∈ template.filedNames) ∧
    ∀ id template, game.template? id = some template →
      template.id = id ∧ template.filedNames.Nodup := by
  refine ⟨fun a b first second ↦ h.eq_of_sameWord, fun text template ↦ ?_, h.getElem?_legend_iff,
    fun id template htemplate ↦ ⟨h.id_eq htemplate, h.nodup_filedNames htemplate⟩⟩
  refine ⟨h.objectNamed?_eq_some_iff, fun hnamed ↦ ?_⟩
  obtain ⟨htemplate, htext⟩ := h.objectNamed?_eq_some_iff.mp hnamed
  exact h.lookup?_identifier htemplate htext

/-! ## A player with three names -/

/-- A player that is known by a glyph and by an alias of the glyph, and a wall. -/
def hermitage : String :=
  "OBJECTS\nPlayer P\n\nWall #\nLEGEND\nHero = p\nCOLLISIONLAYERS\nPlayer\nWall\nLEVELS\nP#\n"

/-- The player of the hermitage is found by its name in capitals, and just its three names denote
it. -/
theorem names_denote_hermitage : ∃ (game : Game) (template : Template), game.IsDefined ∧
    game.objectNamed? "PLAYER" = some template ∧
    game.legend.lookup? "PLAYER" = some (.object template.id) ∧
    (∀ key, game.legend[key]? = some (.object template.id) ↔ key ∈ ["player", "p", "hero"]) ∧
    ["player", "p", "hero"].Nodup := by
  have hread : (Session.readGame hermitage).yields .empty (fun game ↦
      (game.objectNamed? "PLAYER").any fun template ↦
        template.filedNames == ["player", "p", "hero"]) = true := by
    decide +kernel
  obtain ⟨game, log, hgame, hplayer⟩ := Logged.exists_of_yields hread
  obtain ⟨template, hnamed, hnames⟩ := (Option.any_eq_true _ _).mp hplayer
  rw [beq_iff_eq] at hnames
  have hdefined := Session.isDefined_of_readGame ⟨.empty, log, hgame⟩
  obtain ⟨-, hfound, hdenoted, hlisted⟩ := hdefined.names_denote
  have htemplate := ((hfound "PLAYER" template).1.mp hnamed).1
  refine ⟨game, template, hdefined, hnamed, (hfound "PLAYER" template).2 hnamed, fun key ↦ ?_,
    hnames ▸ (hlisted template.id template htemplate).2⟩
  rw [hdenoted key template.id, ← hnames]
  constructor
  · rintro ⟨other, hother, hkey⟩
    rwa [Option.some.inj (htemplate.symm.trans hother)]
  · intro hkey
    exact ⟨template, htemplate, hkey⟩

end Game

end TilePuzzle
