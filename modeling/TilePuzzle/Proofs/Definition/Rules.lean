import TilePuzzle.Definition.Expansion
import TilePuzzle.Proofs.Definition.Names

/-!
# Rules mention declared objects

The terms of a rule are resolved in the legend, so the rules of a line mention no object that the
legend does not mention. Keeping a requirement changes its fate and not its objects. A line stands
for at least one rule, which is why no group is empty, and each rule has as many cells as the left
pattern of its line.

## The invariant

`RuleCell.Within` bounds the numbers of all objects of a cell. It holds of the empty cell and is
kept by each term that is added, on the left or on the right. Of the groups, `Collects` is all that
has to be known: none is empty, and each rule is one that some line stands for.
-/

namespace TilePuzzle

/-! ## Objects below a bound -/

/-- Every object of a rule cell has a number below a bound. -/
structure RuleCell.Within (count : Nat) (cell : RuleCell) : Prop where
  requirements : ∀ requirement ∈ cell.requirements, requirement.objects.Within count
  exclusions : ∀ exclusion ∈ cell.exclusions, exclusion.objects.Within count
  clears : ∀ objects ∈ cell.clears, objects.Within count
  spawns : ∀ spawn ∈ cell.spawns, spawn.object.index < count

/-- Every object of a rule has a number below a bound. -/
def Rule.Within (count : Nat) (rule : Rule) : Prop := ∀ cell ∈ rule.cells, cell.Within count

/-! ## Rule cells -/

namespace RuleCell

variable {count : Nat} {legend : Legend} {line : Nat} {along : Direction} {cell cell' : RuleCell}

theorem within_empty : empty.Within count where
  requirements _ h := absurd h List.not_mem_nil
  exclusions _ h := absurd h List.not_mem_nil
  clears _ h := absurd h List.not_mem_nil
  spawns _ h := absurd h List.not_mem_nil

theorem within_requiredSets {meaning : Meaning} (h : meaning.Within count) :
    ∀ objects ∈ requiredSets meaning, objects.Within count := by
  intro objects hobjects
  cases meaning with
  | object id =>
    obtain rfl := List.mem_singleton.mp hobjects
    exact ObjectSet.within_single (h id List.mem_cons_self)
  | property members =>
    obtain rfl := List.mem_singleton.mp hobjects
    exact h
  | aggregate members =>
    obtain ⟨id, hid, rfl⟩ := List.mem_map.mp hobjects
    exact ObjectSet.within_single (h id hid)

theorem Within.addLeft (h : cell.Within count) (hlegend : legend.Within count) {term : PatternTerm}
    (hadd : addLeft legend line along cell term = .ok cell') : cell'.Within count := by
  obtain ⟨meaning, hresolve, hadd⟩ := bind_eq_ok_iff.mp hadd
  have hmeaning := hlegend.resolve hresolve
  split at hadd
  · obtain rfl := pure_eq_ok_iff.mp hadd
    refine { h with exclusions := fun exclusion hmem ↦ ?_ }
    rcases List.mem_append.mp hmem with hmem | hmem
    · exact h.exclusions exclusion hmem
    · obtain rfl := List.mem_singleton.mp hmem
      exact hmeaning.objects
  · obtain rfl := pure_eq_ok_iff.mp hadd
    refine { h with requirements := fun requirement hmem ↦ ?_ }
    rcases List.mem_append.mp hmem with hmem | hmem
    · exact h.requirements requirement hmem
    · obtain ⟨objects, hobjects, rfl⟩ := List.mem_map.mp hmem
      exact within_requiredSets hmeaning objects hobjects

theorem map_objects_claim? {objects : ObjectSet} {write : MovementTest → IntentWrite} :
    ∀ {requirements requirements' : List Requirement},
      claim? objects write requirements = some requirements' →
      requirements'.map Requirement.objects = requirements.map Requirement.objects
  | [], _, h => by cases h
  | requirement :: rest, _, h => by
    rw [claim?] at h
    split at h
    · cases h
      rfl
    · obtain ⟨rest', hrest, rfl⟩ := Option.map_eq_some_iff.mp h
      simp [map_objects_claim? hrest]

theorem Within.claim (h : cell.Within count) {objects : ObjectSet}
    {write : MovementTest → IntentWrite} {requirements : List Requirement}
    (hclaim : claim? objects write cell.requirements = some requirements) :
    ({ cell with requirements } : RuleCell).Within count := by
  refine { h with requirements := fun requirement hmem ↦ ?_ }
  have hobjects : requirement.objects ∈ cell.requirements.map Requirement.objects := by
    rw [← map_objects_claim? hclaim]
    exact List.mem_map_of_mem hmem
  obtain ⟨earlier, hearlier, heq⟩ := List.mem_map.mp hobjects
  exact heq ▸ h.requirements earlier hearlier

theorem Within.keepOrSpawn (h : cell.Within count) {word : Option MovementWord} {id : ObjectId}
    (hid : id.index < count) : (cell.keepOrSpawn along word id).Within count := by
  rw [RuleCell.keepOrSpawn]
  split
  · next hclaim => exact h.claim hclaim
  · refine { h with spawns := fun spawn hmem ↦ ?_ }
    rcases List.mem_append.mp hmem with hmem | hmem
    · exact h.spawns spawn hmem
    · obtain rfl := List.mem_singleton.mp hmem
      exact hid

theorem Within.keepOrSpawnAll (h : cell.Within count) {word : Option MovementWord}
    {ids : List ObjectId} (hids : ∀ id ∈ ids, id.index < count) :
    (ids.foldl (RuleCell.keepOrSpawn along word) cell).Within count :=
  List.foldlRecOn (motive := Within count) ids _ h fun _ hbefore id hid ↦
    hbefore.keepOrSpawn (hids id hid)

theorem Within.addRight (h : cell.Within count) (hlegend : legend.Within count) {term : PatternTerm}
    (hadd : addRight legend line along cell term = .ok cell') : cell'.Within count := by
  obtain ⟨meaning, hresolve, hadd⟩ := bind_eq_ok_iff.mp hadd
  have hmeaning := hlegend.resolve hresolve
  split at hadd
  · obtain rfl := pure_eq_ok_iff.mp hadd
    refine { h with clears := fun objects hmem ↦ ?_ }
    rcases List.mem_append.mp hmem with hmem | hmem
    · exact h.clears objects hmem
    · obtain rfl := List.mem_singleton.mp hmem
      exact hmeaning.objects
  · cases meaning with
    | object id =>
      obtain rfl := pure_eq_ok_iff.mp hadd
      exact h.keepOrSpawn (hmeaning id List.mem_cons_self)
    | property members =>
      dsimp only at hadd
      split at hadd
      · next hclaim =>
        obtain rfl := pure_eq_ok_iff.mp hadd
        exact h.claim hclaim
      · simp at hadd
    | aggregate members =>
      obtain rfl := pure_eq_ok_iff.mp hadd
      exact h.keepOrSpawnAll hmeaning

theorem Within.keepAll (h : cell.Within count) : cell.keepAll.Within count := by
  refine { h with requirements := fun requirement hmem ↦ ?_ }
  obtain ⟨earlier, hearlier, rfl⟩ := List.mem_map.mp hmem
  exact h.requirements earlier hearlier

theorem within_ofPattern (hlegend : legend.Within count) {left : CellPattern}
    {right : Option CellPattern} (h : ofPattern legend line along left right = .ok cell) :
    cell.Within count := by
  obtain ⟨before, hbefore, h⟩ := bind_eq_ok_iff.mp h
  have hwithin : before.Within count :=
    foldlM_ok_induction (fun _ _ _ _ hadd hcell ↦ hcell.addLeft hlegend hadd) hbefore within_empty
  cases right with
  | none =>
    obtain rfl := pure_eq_ok_iff.mp h
    exact hwithin.keepAll
  | some right =>
    exact foldlM_ok_induction (fun _ _ _ _ hadd hcell ↦ hcell.addRight hlegend hadd) h hwithin

end RuleCell

/-! ## Rules of a line -/

namespace RuleDeclaration

variable {count : Nat} {legend : Legend} {declaration : RuleDeclaration} {rules : List Rule}

theorem length_cellPairs (h : declaration.checkShape = .ok ()) :
    declaration.cellPairs.length = declaration.left.length := by
  rw [checkShape] at h
  rw [cellPairs]
  split at h
  · exact List.length_map _
  · split at h
    · next hlength => rw [List.length_zip, List.length_map, hlength, Nat.min_self]
    · simp at h

theorem toList_ofHeadings_ne_nil (headings : List Heading) :
    (DirectionSet.ofHeadings headings).toList ≠ [] := by
  have hsome : DirectionSet.ofHeadings headings ≠ .empty := by
    rw [DirectionSet.ofHeadings]
    split
    · decide
    · next hne => exact hne
  generalize DirectionSet.ofHeadings headings = set at hsome
  -- one case is the empty set, and the others are evaluated
  rcases set with ⟨_ | _, _ | _, _ | _, _ | _⟩
  · exact absurd rfl hsome
  all_goals decide

theorem inDirection_eq_ok (hlegend : legend.Within count) {direction : Direction} {rule : Rule}
    (h : declaration.inDirection legend direction = .ok rule) :
    rule.Within count ∧ rule.cells.length = declaration.cellPairs.length := by
  obtain ⟨cells, hcells, h⟩ := bind_eq_ok_iff.mp h
  obtain rfl := pure_eq_ok_iff.mp h
  refine ⟨fun cell hcell ↦ ?_, length_of_mapM_eq_ok hcells⟩
  obtain ⟨⟨left, right⟩, -, hpair⟩ := mem_of_mapM_eq_ok hcells hcell
  exact RuleCell.within_ofPattern hlegend hpair

theorem inDirections_eq_ok (hlegend : legend.Within count)
    (h : declaration.inDirections legend = .ok rules) :
    rules ≠ [] ∧ ∀ rule ∈ rules,
      rule.Within count ∧ rule.cells.length = declaration.left.length := by
  obtain ⟨⟨⟩, hshape, h⟩ := bind_eq_ok_iff.mp h
  refine ⟨fun hnil ↦ ?_, fun rule hrule ↦ ?_⟩
  · have hlength := length_of_mapM_eq_ok h
    rw [hnil, List.length_nil] at hlength
    exact toList_ofHeadings_ne_nil _ (List.length_eq_zero_iff.mp hlength.symm)
  · obtain ⟨direction, -, hdirection⟩ := mem_of_mapM_eq_ok h hrule
    obtain ⟨hwithin, hlength⟩ := inDirection_eq_ok hlegend hdirection
    exact ⟨hwithin, hlength.trans (length_cellPairs hshape)⟩

theorem mem_of_mem_dropRepeated {rule : Rule} (h : rule ∈ dropRepeated rules) : rule ∈ rules := by
  refine List.foldlRecOn (motive := fun kept ↦ rule ∈ kept → rule ∈ rules) rules _
    (fun hnil ↦ absurd hnil List.not_mem_nil) ?_ h
  intro kept hkept latest hlatest hrule
  split at hrule
  · exact hkept hrule
  · rcases List.mem_append.mp hrule with hrule | hrule
    · exact hkept hrule
    · exact List.mem_singleton.mp hrule ▸ hlatest

theorem dropRepeated_ne_nil (h : rules ≠ []) : dropRepeated rules ≠ [] := by
  cases rules with
  | nil => exact absurd rfl h
  | cons first rest =>
    -- nothing is kept yet that the first rule could repeat
    rw [dropRepeated, List.foldl_cons, if_neg fun hany ↦ absurd hany.2 Bool.false_ne_true]
    refine List.foldlRecOn (motive := fun kept ↦ kept ≠ []) rest _ (List.cons_ne_nil first []) ?_
    intro kept hkept latest _
    split
    · exact hkept
    · exact List.append_ne_nil_of_right_ne_nil kept (List.cons_ne_nil latest [])

/-- **The rules of a line** are at least one, and mention only objects of the legend. -/
theorem expand_eq_ok (hlegend : legend.Within count) (h : declaration.expand legend = .ok rules) :
    rules ≠ [] ∧ ∀ rule ∈ rules,
      rule.Within count ∧ rule.cells.length = declaration.left.length := by
  obtain ⟨all, hall, h⟩ := bind_eq_ok_iff.mp h
  obtain rfl := pure_eq_ok_iff.mp h
  obtain ⟨hsome, hrules⟩ := inDirections_eq_ok hlegend hall
  exact ⟨dropRepeated_ne_nil hsome, fun rule hrule ↦ hrules rule (mem_of_mem_dropRepeated hrule)⟩

end RuleDeclaration

/-! ## Groups -/

namespace RuleGroup

/-- No group is empty, and every rule is of some line. -/
def Collects (lines : List (RuleDeclaration × List Rule)) (groups : List RuleGroup) : Prop :=
  ∀ group ∈ groups, group.rules ≠ [] ∧
    ∀ rule ∈ group.rules, ∃ pair ∈ lines, rule ∈ pair.2

variable {lines : List (RuleDeclaration × List Rule)} {groups : List RuleGroup}

theorem Collects.add (h : Collects lines groups) {declaration : RuleDeclaration} {rules : List Rule}
    (hmem : (declaration, rules) ∈ lines) (hrules : rules ≠ []) :
    Collects lines (add groups (declaration, rules)) := by
  have hnew : Collects lines [⟨rules⟩] := by
    intro group hgroup
    obtain rfl := List.mem_singleton.mp hgroup
    exact ⟨hrules, fun rule hrule ↦ ⟨_, hmem, hrule⟩⟩
  cases groups with
  | nil => exact hnew
  | cons latest earlier =>
    rw [RuleGroup.add]
    split
    · intro group hgroup
      rcases List.mem_cons.mp hgroup with rfl | hgroup
      · obtain ⟨hsome, hlatest⟩ := h latest List.mem_cons_self
        refine ⟨fun hnil ↦ hsome (List.append_eq_nil_iff.mp hnil).1, fun rule hrule ↦ ?_⟩
        rcases List.mem_append.mp hrule with hrule | hrule
        · exact hlatest rule hrule
        · exact ⟨_, hmem, hrule⟩
      · exact h group (List.mem_cons_of_mem latest hgroup)
    · intro group hgroup
      rcases List.mem_cons.mp hgroup with rfl | hgroup
      · exact hnew _ List.mem_cons_self
      · exact h group hgroup

theorem collects_collect (hlines : ∀ pair ∈ lines, pair.2 ≠ []) :
    Collects lines (collect lines) := by
  have hfold : Collects lines (lines.foldl RuleGroup.add []) :=
    List.foldlRecOn (motive := Collects lines) lines _
      (fun _ hnil ↦ absurd hnil List.not_mem_nil)
      fun _ hbefore pair hpair ↦ hbefore.add hpair (hlines pair hpair)
  exact fun group hgroup ↦ hfold group (List.mem_reverse.mp hgroup)

/-- Every rule of a group is one that some line stands for. -/
theorem exists_collects_of_build {count : Nat} {legend : Legend} (hlegend : legend.Within count)
    {declarations : List RuleDeclaration} (h : build legend declarations = .ok groups) :
    ∃ lines, Collects lines groups ∧ ∀ pair ∈ lines,
      pair.1 ∈ declarations ∧ pair.1.expand legend = .ok pair.2 := by
  obtain ⟨rules, hrules, h⟩ := bind_eq_ok_iff.mp h
  obtain rfl := pure_eq_ok_iff.mp h
  have hpair : ∀ pair ∈ declarations.zip rules,
      pair.1 ∈ declarations ∧ pair.1.expand legend = .ok pair.2 := by
    intro pair hmem
    obtain ⟨k, hk⟩ := List.mem_iff_getElem?.mp hmem
    obtain ⟨hdeclaration, hexpanded⟩ := List.getElem?_zip_eq_some.mp hk
    obtain ⟨declaration, hfound, hexpand⟩ := getElem?_of_mapM_eq_ok hrules hexpanded
    obtain rfl := Option.some.inj (hdeclaration.symm.trans hfound)
    exact ⟨List.mem_of_getElem? hdeclaration, hexpand⟩
  refine ⟨_, collects_collect fun pair hmem ↦ ?_, hpair⟩
  exact (RuleDeclaration.expand_eq_ok hlegend (hpair pair hmem).2).1

/-- **The groups of a document** are not empty, and their rules mention only objects of the legend
and have as many cells as the left pattern of some line. -/
theorem build_eq_ok {count : Nat} {legend : Legend} (hlegend : legend.Within count)
    {declarations : List RuleDeclaration} (h : build legend declarations = .ok groups) :
    ∀ group ∈ groups, group.rules ≠ [] ∧ ∀ rule ∈ group.rules, rule.Within count ∧
      ∃ declaration ∈ declarations, rule.cells.length = declaration.left.length := by
  obtain ⟨lines, hcollects, hlines⟩ := exists_collects_of_build hlegend h
  intro group hgroup
  obtain ⟨hsome, hrules⟩ := hcollects group hgroup
  refine ⟨hsome, fun rule hrule ↦ ?_⟩
  obtain ⟨pair, hmem, hrule⟩ := hrules rule hrule
  obtain ⟨hdeclaration, hexpand⟩ := hlines pair hmem
  obtain ⟨hwithin, hlength⟩ := (RuleDeclaration.expand_eq_ok hlegend hexpand).2 rule hrule
  exact ⟨hwithin, pair.1, hdeclaration, hlength⟩

end RuleGroup

end TilePuzzle
