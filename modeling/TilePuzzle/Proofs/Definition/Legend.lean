import TilePuzzle.Proofs.Definition.Namespace

/-!
# What legend lines say

A legend line explains its symbol by names that are filed before it: names of objects, and symbols
of earlier lines. A name that is filed keeps its meaning. So what a line said when it was added, it
says in the finished table too, however deeply the lines build on each other.

## Meanings

`Explains` is what a line says of its symbol, given what names denote. As it asks only for names
that are filed, it is kept when more names are filed (`Explains.mono`), and that carries it from the
moment at which a line is added to the finished table (`resolves_of_build`).

## Faults

A line that cannot be added is at fault itself. Either one of its names cannot be used, and the
first such name is to blame, or its symbol is taken.
-/

namespace TilePuzzle

/-- The names that explain the symbol: one that stands alone, or all that are joined. -/
def LegendDefinition.uses (definition : LegendDefinition) : List String :=
  match definition.joining with
  | .alone => [definition.names.headD ""]
  | .either => definition.names
  | .together => definition.names

/-- What is filed in one legend is filed in the other, with the same meaning. -/
def Legend.IsKeptBy (legend legend' : Legend) : Prop :=
  ∀ (key : String) (meaning : Meaning), legend[key]? = some meaning → legend'[key]? = some meaning

namespace Legend

variable {legend legend' : Legend} {definition : LegendDefinition} {name key : String}
  {meaning : Meaning} {error : DefinitionError}

theorem isKeptBy_insert (h : name ∉ legend) (meaning : Meaning) :
    legend.IsKeptBy (legend.insert name meaning) := by
  intro key found hfound
  rw [getElem?_insert, if_neg, hfound]
  rintro rfl
  exact h (mem_of_getElem? hfound)

/-! ## Meanings -/

/-- What a legend line says of its symbol, given what its names denote. -/
inductive Explains (legend : Legend) (definition : LegendDefinition) : Meaning → Prop
  /-- A name that stands alone lends its meaning. -/
  | alone {meaning : Meaning} (joining : definition.joining = .alone)
      (lookup : legend.lookup? (definition.names.headD "") = some meaning) :
      Explains legend definition meaning
  /-- Names joined by `or` denote any object that one of them stands for. -/
  | either {parts : List Meaning} {members : ObjectSet} (joining : definition.joining = .either)
      (lookup : List.Forall₂ (fun name part ↦
        legend.lookup? name = some part ∧ ∀ ids, part ≠ .aggregate ids) definition.names parts)
      (union : ∀ id, id ∈ members.ids ↔ ∃ part ∈ parts, id ∈ part.objects.ids) :
      Explains legend definition (.property members)
  /-- Names joined by `and` denote all their objects, one name after the other. -/
  | together {parts : List Meaning} (joining : definition.joining = .together)
      (lookup : List.Forall₂ (fun name part ↦
        legend.lookup? name = some part ∧ ∀ set, part ≠ .property set) definition.names parts) :
      Explains legend definition (.aggregate (parts.flatMap Meaning.ids))

theorem Explains.mono (h : legend.Explains definition meaning) (hkept : legend.IsKeptBy legend') :
    legend'.Explains definition meaning := by
  have hlookup : ∀ name part, legend.lookup? name = some part →
      legend'.lookup? name = some part := by
    intro name part
    exact hkept (Text.fold name) part
  cases h with
  | alone hjoining hname => exact .alone hjoining (hlookup _ _ hname)
  | either hjoining hparts hunion =>
    exact .either hjoining (hparts.imp fun name part hpart ↦ hpart.imp_left (hlookup name part))
      hunion
  | together hjoining hparts =>
    exact .together hjoining (hparts.imp fun name part hpart ↦ hpart.imp_left (hlookup name part))

theorem explains_of_denote (h : legend.denote definition = .ok meaning) :
    legend.Explains definition meaning := by
  rw [denote] at h
  split at h
  · next hjoining => exact .alone hjoining (resolve_eq_ok_iff.mp h)
  · next hjoining =>
    obtain ⟨lists, hlists, h⟩ := bind_eq_ok_iff.mp h
    obtain ⟨parts, hparts, rfl⟩ :=
      exists_forall₂_of_mapM_eq_ok (fun _ _ ↦ propertyPart_eq_ok_iff.mp) hlists
    obtain rfl := pure_eq_ok_iff.mp h
    refine .either hjoining hparts fun id ↦ ?_
    rw [ObjectSet.mem_ids_ofList, List.mem_flatten]
    simp only [List.mem_map, exists_exists_and_eq_and, Meaning.mem_ids_objects]
  · next hjoining =>
    obtain ⟨lists, hlists, h⟩ := bind_eq_ok_iff.mp h
    obtain ⟨parts, hparts, rfl⟩ :=
      exists_forall₂_of_mapM_eq_ok (fun _ _ ↦ aggregatePart_eq_ok_iff.mp) hlists
    obtain rfl := pure_eq_ok_iff.mp h
    exact .together hjoining hparts

private theorem exists_of_forall₂ {α β : Type} {R : α → β → Prop} {xs : List α} {ys : List β}
    (h : List.Forall₂ R xs ys) : ∀ x ∈ xs, ∃ y, R x y := by
  induction h with
  | nil => exact List.forall_mem_nil _
  | cons hxy hrest ih => exact List.forall_mem_cons.mpr ⟨⟨_, hxy⟩, ih⟩

theorem Explains.exists_lookup? (h : legend.Explains definition meaning) :
    ∀ name ∈ definition.uses, ∃ part, legend.lookup? name = some part := by
  rw [LegendDefinition.uses]
  intro name hname
  cases h with
  | alone hjoining hlookup =>
    rw [hjoining] at hname
    exact ⟨meaning, List.mem_singleton.mp hname ▸ hlookup⟩
  | either hjoining hparts hunion =>
    rw [hjoining] at hname
    obtain ⟨part, hpart, -⟩ := exists_of_forall₂ hparts name hname
    exact ⟨part, hpart⟩
  | together hjoining hparts =>
    rw [hjoining] at hname
    obtain ⟨part, hpart, -⟩ := exists_of_forall₂ hparts name hname
    exact ⟨part, hpart⟩

/-! ## Faults -/

/-- Why a name cannot be used in a line. -/
inductive IsNameFault (legend : Legend) (definition : LegendDefinition) (name : String) :
    DefinitionError → Prop
  | undefined (lookup : legend.lookup? name = none) :
      IsNameFault legend definition name (.undefinedName definition.line name)
  | aggregate {members : List ObjectId} (joining : definition.joining = .either)
      (lookup : legend.lookup? name = some (.aggregate members)) :
      IsNameFault legend definition name
        (.propertyContainsAggregate definition.line definition.symbol name)
  | property {members : ObjectSet} (joining : definition.joining = .together)
      (lookup : legend.lookup? name = some (.property members)) :
      IsNameFault legend definition name
        (.aggregateContainsProperty definition.line definition.symbol name)

/-- Why a line cannot be added: the first of its names that cannot be used, or else a symbol that is
taken. -/
inductive IsFault (legend : Legend) (definition : LegendDefinition) : DefinitionError → Prop
  | name {front back : List String} {name : String} {error : DefinitionError}
      (uses : definition.uses = front ++ name :: back)
      (first : ∀ other ∈ front, ∀ error, ¬legend.IsNameFault definition other error)
      (fault : legend.IsNameFault definition name error) : IsFault legend definition error
  | taken (usable : ∀ name ∈ definition.uses, ∀ error, ¬legend.IsNameFault definition name error)
      (symbol : Text.fold definition.symbol ∈ legend) :
      IsFault legend definition (.duplicateName definition.line definition.symbol)

theorem resolve_eq_error_iff_isNameFault (h : definition.joining = .alone) :
    legend.resolve definition.line name = .error error ↔
      legend.IsNameFault definition name error := by
  rw [resolve_eq_error_iff]
  constructor
  · rintro ⟨hlookup, rfl⟩
    exact .undefined hlookup
  · intro hfault
    cases hfault with
    | undefined hlookup => exact ⟨hlookup, rfl⟩
    | aggregate hjoining => exact absurd (h.symm.trans hjoining) (by decide)
    | property hjoining => exact absurd (h.symm.trans hjoining) (by decide)

theorem propertyPart_eq_error_iff (h : definition.joining = .either) :
    legend.propertyPart definition name = .error error ↔
      legend.IsNameFault definition name error := by
  rw [propertyPart, bind_eq_error_iff, resolve_eq_error_iff]
  simp only [resolve_eq_ok_iff]
  constructor
  · rintro (⟨hlookup, rfl⟩ | ⟨part, hlookup, hpart⟩)
    · exact .undefined hlookup
    · cases part with
      | object id => cases hpart
      | property members => cases hpart
      | aggregate members =>
        cases hpart
        exact .aggregate h hlookup
  · intro hfault
    cases hfault with
    | undefined hlookup => exact .inl ⟨hlookup, rfl⟩
    | aggregate hjoining hlookup => exact .inr ⟨_, hlookup, rfl⟩
    | property hjoining => exact absurd (h.symm.trans hjoining) (by decide)

theorem aggregatePart_eq_error_iff (h : definition.joining = .together) :
    legend.aggregatePart definition name = .error error ↔
      legend.IsNameFault definition name error := by
  rw [aggregatePart, bind_eq_error_iff, resolve_eq_error_iff]
  simp only [resolve_eq_ok_iff]
  constructor
  · rintro (⟨hlookup, rfl⟩ | ⟨part, hlookup, hpart⟩)
    · exact .undefined hlookup
    · cases part with
      | object id => cases hpart
      | aggregate members => cases hpart
      | property members =>
        cases hpart
        exact .property h hlookup
  · intro hfault
    cases hfault with
    | undefined hlookup => exact .inl ⟨hlookup, rfl⟩
    | aggregate hjoining => exact absurd (h.symm.trans hjoining) (by decide)
    | property hjoining hlookup => exact .inr ⟨_, hlookup, rfl⟩

/-- A line is worked through name by name, and stops at a name just if it cannot be used. -/
theorem exists_denote_eq_map (legend : Legend) (definition : LegendDefinition) :
    ∃ (β : Type) (part : String → Except DefinitionError β) (join : List β → Meaning),
      legend.denote definition = (definition.uses.mapM part).map join ∧
        ∀ name error, part name = .error error ↔ legend.IsNameFault definition name error := by
  have hjoin : ∀ (lists : Except DefinitionError (List (List ObjectId))) (join : _ → Meaning),
      (lists >>= fun lists ↦ pure (join lists)) = lists.map join := by
    intro lists join
    cases lists <;> rfl
  cases hjoining : definition.joining with
  | alone =>
    refine ⟨_, legend.resolve definition.line, fun parts ↦ parts.headD default, ?_, fun _ _ ↦
      resolve_eq_error_iff_isNameFault hjoining⟩
    rw [denote, LegendDefinition.uses, hjoining]
    dsimp only
    rw [List.mapM_cons]
    cases legend.resolve definition.line (definition.names.headD "") <;> rfl
  | either =>
    refine ⟨_, legend.propertyPart definition, fun lists ↦ .property (.ofList lists.flatten), ?_,
      fun _ _ ↦ propertyPart_eq_error_iff hjoining⟩
    rw [denote, LegendDefinition.uses, hjoining]
    exact hjoin _ _
  | together =>
    refine ⟨_, legend.aggregatePart definition, fun lists ↦ .aggregate lists.flatten, ?_,
      fun _ _ ↦ aggregatePart_eq_error_iff hjoining⟩
    rw [denote, LegendDefinition.uses, hjoining]
    exact hjoin _ _

/-- A line denotes nothing just if one of its names cannot be used, and then the first such name is
to blame. -/
theorem denote_eq_error_iff : legend.denote definition = .error error ↔
    ∃ front name back, definition.uses = front ++ name :: back ∧
      legend.IsNameFault definition name error ∧
        ∀ other ∈ front, ∀ e, ¬legend.IsNameFault definition other e := by
  obtain ⟨β, part, join, hdenote, hpart⟩ := exists_denote_eq_map legend definition
  rw [hdenote, map_eq_error_iff, mapM_eq_error_iff]
  simp only [exists_eq_ok_iff, ne_eq, hpart]

theorem not_isNameFault_of_denote (h : legend.denote definition = .ok meaning) :
    ∀ name ∈ definition.uses, ∀ e, ¬legend.IsNameFault definition name e := by
  obtain ⟨β, part, join, hdenote, hpart⟩ := exists_denote_eq_map legend definition
  rw [hdenote, map_eq_ok_iff] at h
  obtain ⟨parts, hparts, -⟩ := h
  intro name hname e hfault
  obtain ⟨found, hfound⟩ := exists_of_forall₂ (forall₂_of_mapM_eq_ok hparts) name hname
  rw [(hpart name e).mpr hfault] at hfound
  cases hfound

end Legend

namespace SymbolTable

variable {table table' : SymbolTable} {definition : LegendDefinition} {error : DefinitionError}

theorem addDefinition_eq_error_iff :
    table.addDefinition definition = .error error ↔ table.legend.IsFault definition error := by
  constructor
  · intro h
    rcases bind_eq_error_iff.mp h with h | ⟨meaning, hmeaning, h⟩
    · obtain ⟨front, name, back, huses, hfault, hfirst⟩ := Legend.denote_eq_error_iff.mp h
      exact .name huses hfirst hfault
    · rcases bind_eq_error_iff.mp h with h | ⟨legend, -, h⟩
      · obtain ⟨hsymbol, rfl⟩ := Legend.define_eq_error_iff.mp h
        exact .taken (Legend.not_isNameFault_of_denote hmeaning) hsymbol
      · cases h
  · intro h
    cases h with
    | name huses hfirst hfault =>
      exact bind_eq_error_iff.mpr
        (.inl (Legend.denote_eq_error_iff.mpr ⟨_, _, _, huses, hfault, hfirst⟩))
    | taken husable hsymbol =>
      obtain ⟨meaning, hmeaning⟩ : ∃ meaning, table.legend.denote definition = .ok meaning := by
        refine exists_eq_ok_iff.mpr fun error herror ↦ ?_
        obtain ⟨front, name, back, huses, hfault, -⟩ := Legend.denote_eq_error_iff.mp herror
        refine husable name ?_ error hfault
        rw [huses]
        exact List.mem_append_right front List.mem_cons_self
      refine bind_eq_error_iff.mpr (.inr ⟨meaning, hmeaning, bind_eq_error_iff.mpr (.inl ?_)⟩)
      exact Legend.define_eq_error_iff.mpr ⟨hsymbol, rfl⟩

/-! ## The finished table -/

/-- The names that objects and legend lines file. -/
def filedNames (declarations : List ObjectDeclaration) (definitions : List LegendDefinition) :
    List String :=
  declarations.flatMap ObjectDeclaration.filedNames ++
    definitions.map fun definition ↦ Text.fold definition.symbol

/-- What the names of a table denote, line by line. -/
structure Resolves (table : SymbolTable) (declarations : List ObjectDeclaration)
    (definitions : List LegendDefinition) : Prop where
  /-- No name is filed twice. -/
  nodup : (filedNames declarations definitions).Nodup
  mem_iff : ∀ key, key ∈ table.legend ↔ key ∈ filedNames declarations definitions
  /-- The names of an object denote it. -/
  declared : ∀ (k : Nat) (declaration : ObjectDeclaration), declarations[k]? = some declaration →
    ∀ key ∈ declaration.filedNames, table.legend[key]? = some (.object (.ofIndex k))
  /-- A legend line uses names of objects and of earlier lines, and what they denote explains its
  symbol. -/
  defined : ∀ front definition back, definitions = front ++ definition :: back →
    (∀ name ∈ definition.uses, Text.fold name ∈ filedNames declarations front) ∧
      ∃ meaning, table.legend.lookup? definition.symbol = some meaning ∧
        table.legend.Explains definition meaning

theorem resolves_empty : empty.Resolves [] [] where
  nodup := List.nodup_nil
  mem_iff key := iff_of_false Std.TreeMap.not_mem_emptyc List.not_mem_nil
  declared k declaration h := by
    rw [List.getElem?_nil] at h
    cases h
  defined front definition back h := absurd h (by simp)

variable {declarations : List ObjectDeclaration} {definitions : List LegendDefinition}

theorem Resolves.addObjectResult (h : table.Resolves declarations [])
    (hsize : table.objects.size = declarations.length) {declaration : ObjectDeclaration}
    (hadd : table.addObjectResult declaration = .ok table') :
    table'.Resolves (declarations ++ [declaration]) [] := by
  obtain ⟨legend, appearance, hlegend, rfl⟩ := addObjectResult_eq_ok hadd
  obtain ⟨-, hnew, hget⟩ := nameObject_eq_ok hlegend
  have hnames : filedNames (declarations ++ [declaration]) [] =
      filedNames declarations [] ++ declaration.filedNames := by
    simp [filedNames]
  constructor
  case nodup =>
    rw [hnames, List.nodup_append]
    refine ⟨h.nodup, hnew.1, fun name hname other hother hsame ↦ ?_⟩
    exact hnew.2 other hother ((h.mem_iff other).mpr (hsame ▸ hname))
  case mem_iff =>
    intro key
    rw [hnames, List.mem_append, ← h.mem_iff, Std.TreeMap.mem_iff_isSome_getElem?,
      Std.TreeMap.mem_iff_isSome_getElem?, hget]
    split
    · next hkey => exact iff_of_true rfl (.inr hkey)
    · next hkey => rw [or_iff_left hkey]
  case declared =>
    intro k found hfound key hkey
    rw [hget]
    rcases getElem?_concat_eq_some_iff.mp hfound with hfound | ⟨rfl, rfl⟩
    · -- the names of an earlier object are not new
      have hold := h.declared k found hfound key hkey
      rw [if_neg fun hmem ↦ hnew.2 key hmem (Legend.mem_of_getElem? hold), hold]
    · rw [if_pos hkey, hsize]
  case defined =>
    intro front definition back heq
    exact absurd heq (by simp)

theorem Resolves.addDefinition (h : table.Resolves declarations definitions)
    (hadd : table.addDefinition definition = .ok table') :
    table'.Resolves declarations (definitions ++ [definition]) := by
  obtain ⟨meaning, hmeaning, hnew, rfl⟩ := addDefinition_eq_ok hadd
  have hkept := Legend.isKeptBy_insert hnew meaning
  have hexplains := Legend.explains_of_denote hmeaning
  have hnames : filedNames declarations (definitions ++ [definition]) =
      filedNames declarations definitions ++ [Text.fold definition.symbol] := by
    simp [filedNames]
  constructor
  case nodup =>
    rw [hnames, List.nodup_append]
    refine ⟨h.nodup, List.nodup_singleton _, fun name hname other hother hsame ↦ hnew ?_⟩
    rw [List.mem_singleton] at hother
    exact (h.mem_iff _).mpr (hother ▸ hsame ▸ hname)
  case mem_iff =>
    intro key
    rw [hnames, List.mem_append, List.mem_singleton, ← h.mem_iff, Std.TreeMap.mem_insert,
      Std.LawfulEqCmp.compare_eq_iff_eq, or_comm, eq_comm]
  case declared =>
    intro k declaration hk key hkey
    exact hkept key _ (h.declared k declaration hk key hkey)
  case defined =>
    intro front found back heq
    rcases List.eq_nil_or_concat back with rfl | ⟨back, last, rfl⟩
    · -- the line that was added
      obtain ⟨rfl, hsame⟩ := List.append_inj' heq rfl
      obtain rfl := (List.cons.inj hsame).1
      refine ⟨fun name hname ↦ ?_, meaning, ?_, hexplains.mono hkept⟩
      · obtain ⟨part, hpart⟩ := hexplains.exists_lookup? name hname
        exact (h.mem_iff _).mp (Legend.mem_of_getElem? hpart)
      · rw [Legend.lookup?, Legend.getElem?_insert, if_pos rfl]
    · -- an earlier line
      rw [List.concat_eq_append, ← List.cons_append, ← List.append_assoc] at heq
      obtain ⟨hfront, -⟩ := List.append_inj' heq rfl
      obtain ⟨huses, other, hother, hsays⟩ := h.defined front found back hfront
      exact ⟨huses, other, hkept _ other hother, hsays.mono hkept⟩

/-- **What the names of a finished table denote**, for any objects and legend lines. -/
theorem resolves_of_build (h : (build declarations definitions).Gives table) :
    table.Resolves declarations definitions := by
  obtain ⟨named, hnamed, htable⟩ := build_gives_iff.mp h
  have hobjects : named.objects.size = declarations.length ∧ named.Resolves declarations [] := by
    refine foldlM_ok_concat (P := fun front table ↦
      table.objects.size = front.length ∧ table.Resolves front []) hnamed ?_ ⟨rfl, resolves_empty⟩
    rintro front declaration before after hadd ⟨hsize, hbefore⟩
    refine ⟨?_, hbefore.addObjectResult hsize hadd⟩
    obtain ⟨legend, appearance, -, rfl⟩ := addObjectResult_eq_ok hadd
    simp [hsize]
  exact foldlM_ok_concat (P := fun front table ↦ table.Resolves declarations front) htable
    (fun _ _ _ _ hadd hbefore ↦ hbefore.addDefinition hadd) hobjects.2

theorem build_eq_error_iff {named : SymbolTable} (h : (build declarations []).Gives named)
    {log : Log} {failure : Failure DefinitionError} :
    ((build declarations definitions).runOn log).1 = .error failure ↔
      ∃ front definition back table error, definitions = front ++ definition :: back ∧
        (build declarations front).Gives table ∧ failure = .refused error ∧
          table.legend.IsFault definition error := by
  obtain ⟨first, hnamed, heq⟩ := build_gives_iff.mp h
  rw [pure_eq_ok_iff.mp heq] at hnamed
  have hgives : ∀ front table, (build declarations front).Gives table ↔
      front.foldlM SymbolTable.addDefinition named = .ok table := by
    intro front table
    rw [build_gives_iff]
    constructor
    · rintro ⟨_, hsame, htable⟩
      rwa [← Except.ok.inj (hsame.symm.trans hnamed)]
    · intro htable
      exact ⟨named, hnamed, htable⟩
  rw [returns_build declarations definitions log, buildResult, hnamed]
  change (definitions.foldlM SymbolTable.addDefinition named).mapError _ = _ ↔ _
  simp only [mapError_eq_error_iff, foldlM_eq_error_iff, hgives, addDefinition_eq_error_iff]
  constructor
  · rintro ⟨error, ⟨front, definition, back, table, hsplit, htable, hfault⟩, rfl⟩
    exact ⟨front, definition, back, table, error, hsplit, htable, rfl, hfault⟩
  · rintro ⟨front, definition, back, table, error, hsplit, htable, rfl, hfault⟩
    exact ⟨error, ⟨front, definition, back, table, hsplit, htable, hfault⟩, rfl⟩

/-- **Legend lines build on earlier lines.** In the finished table every line says of its symbol
what the names it uses denote there, and all of these were filed before it. If the objects can be
named, the table is finished unless a line is at fault: building stops at the first such line, and
what is wrong with it is the error. -/
theorem legend_compositional (declarations : List ObjectDeclaration)
    (definitions : List LegendDefinition) :
    (∀ table, (build declarations definitions).Gives table →
      table.Resolves declarations definitions) ∧
    ∀ named, (build declarations []).Gives named → ∀ log failure,
      ((build declarations definitions).runOn log).1 = .error failure ↔
        ∃ front definition back table error, definitions = front ++ definition :: back ∧
          (build declarations front).Gives table ∧ failure = .refused error ∧
            table.legend.IsFault definition error :=
  ⟨fun _ ↦ resolves_of_build, fun _ hnamed _ _ ↦ build_eq_error_iff hnamed⟩

/-- The objects of a depot. -/
def depotObjects : List ObjectDeclaration :=
  [⟨2, "Player", ["P"], [], []⟩, ⟨4, "Wall", ["#"], [], []⟩, ⟨6, "Crate", [], [], []⟩]

/-- A property of a property, and an aggregate that repeats an object under an alias. -/
def depotLegend : List LegendDefinition :=
  [⟨8, "Solid", .either, ["wall", "Crate"]⟩, ⟨9, "Box", .alone, ["CRATE"]⟩,
    ⟨10, "Pile", .together, ["#", "box", "Crate"]⟩, ⟨11, "Thing", .either, ["Solid", "p"]⟩]

/-- In the depot a pile is a wall and two crates, every line says what its names denote, and a
further line that makes a property of piles is refused because of the pile. -/
theorem legend_compositional_depot : ∃ table, (build depotObjects depotLegend).Gives table ∧
    table.legend.lookup? "PILE" = some (.aggregate [⟨1⟩, ⟨2⟩, ⟨2⟩]) ∧
    table.Resolves depotObjects depotLegend ∧
    ∃ front definition back before, depotLegend ++ [⟨12, "Load", .either, ["wall", "pile"]⟩] =
        front ++ definition :: back ∧ (build depotObjects front).Gives before ∧
      before.legend.IsFault definition (.propertyContainsAggregate 12 "Load" "pile") := by
  have htable : (build depotObjects depotLegend).yields .empty (fun table ↦
      table.legend.lookup? "PILE" == some (.aggregate [⟨1⟩, ⟨2⟩, ⟨2⟩])) = true := by
    decide +kernel
  have hnamed : (build depotObjects []).yields .empty (fun _ ↦ true) = true := by
    decide +kernel
  have hfails : ((build depotObjects
      (depotLegend ++ [⟨12, "Load", .either, ["wall", "pile"]⟩])).runOn .empty).1.map (fun _ ↦ ()) =
        .error (.refused (.propertyContainsAggregate 12 "Load" "pile")) := by
    decide +kernel
  obtain ⟨table, log, hrun, hpile⟩ := Logged.exists_of_yields htable
  obtain ⟨named, log', hrun', -⟩ := Logged.exists_of_yields hnamed
  obtain ⟨front, definition, back, before, error, hsplit, hbefore, heq, hfault⟩ :=
    ((legend_compositional depotObjects _).2 named ⟨.empty, log', hrun'⟩ _ _).mp
      (map_eq_error_iff.mp hfails)
  obtain rfl := Failure.refused.inj heq
  exact ⟨table, ⟨.empty, log, hrun⟩, eq_of_beq hpile,
    (legend_compositional depotObjects depotLegend).1 table ⟨.empty, log, hrun⟩,
    front, definition, back, before, hsplit, hbefore, hfault⟩

end SymbolTable

end TilePuzzle
