import Mathlib.Data.List.Basic
import TilePuzzle.Proofs.Definition.Rules

/-!
# Pairing the two sides of a cell

A positive term of a pattern says something of a set of objects, and an aggregate says it of each
member by itself. These *entries* of two cells that lie across from each other are paired set by
set: of the entries for one set, the first on the right goes with the first on the left, the second
with the second, and so on, whatever names they were written with. A left entry with a partner is
kept, with the intent that the partner writes, and one without a partner is removed. A right entry
without a partner is spawned, which a property cannot be.

## Two sides of one pairing

A cell is built by one right entry after the other, each taking the first requirement that is still
free. `RuleCell.paired` tells the outcome from the other side: each left entry in turn takes the
first right entry for its objects and leaves the others to the left entries behind it. In this form
the entries for one set can be looked at by themselves (`getElem?_filter_paired`).

## The induction

The two meet in one step: to build a cell and then add a right entry is to pair with that entry
added on the right (`pairUp_bind_addEntry`). The step is repeated for the entries of a term and for
the terms of a cell.
-/

namespace TilePuzzle

/-! ## Entries -/

/-- What a positive term says of one set of objects. -/
structure PatternEntry where
  objects : ObjectSet
  /-- The object, if the name denotes one; a property has none. -/
  object? : Option ObjectId
  movement : Option MovementWord
  /-- The name in the term. -/
  name : String
deriving DecidableEq

namespace PatternEntry

/-- The entries of a name with a given meaning: an aggregate has one for each member. -/
def ofMeaning (movement : Option MovementWord) (name : String) : Meaning → List PatternEntry
  | .object id => [⟨.single id, some id, movement, name⟩]
  | .property members => [⟨members, none, movement, name⟩]
  | .aggregate members => members.map fun id ↦ ⟨.single id, some id, movement, name⟩

/-- Whether the entry is for any object of a set. -/
def isProperty (entry : PatternEntry) : Bool := entry.object?.isNone

/-- Whether the entry is for a given set. -/
def isFor (objects : ObjectSet) (entry : PatternEntry) : Bool := entry.objects = objects

/-- The entries for a given set. -/
def among (objects : ObjectSet) (entries : List PatternEntry) : List PatternEntry :=
  entries.filter (isFor objects)

/-- The right entries without a partner: there are as many earlier ones for their objects as there
are left entries. -/
def unpaired (left right : List PatternEntry) : List PatternEntry :=
  (right.zipIdx.filter fun (entry, place) ↦
    (among entry.objects left).length ≤ (among entry.objects (right.take place)).length).map
      Prod.fst

/-- What the entry asks of the intent of an object. -/
def test (along : Direction) (entry : PatternEntry) : MovementTest := .ofWord along entry.movement

/-- The intent that the entry gives to an object. -/
def intent? (along : Direction) (entry : PatternEntry) : Option Movement :=
  entry.movement.bind fun word ↦ word.movement? along

/-- What becomes of an object that a left entry requires when a right entry keeps it. -/
inductive Keeps (along : Direction) (left right : PatternEntry) : Fate → Prop
  /-- The right entry writes a movement. -/
  | gives {movement : Movement} (hright : right.intent? along = some movement) :
      Keeps along left right (.keep (.set movement))
  /-- The right entry writes `stationary`. -/
  | takes {word : MovementWord} (hright : right.movement = some word)
      (hword : word.movement? along = none) : Keeps along left right (.keep .clear)
  /-- The right entry writes nothing, and the left one asked for an intent or for none. -/
  | spends (hright : right.movement = none) (hleft : left.movement.isSome = true) :
      Keeps along left right (.keep .clear)
  /-- Neither entry writes anything. -/
  | leaves (hright : right.movement = none) (hleft : left.movement = none) :
      Keeps along left right (.keep .unchanged)

end PatternEntry

namespace PatternTerm

/-- What a term, if it is of the given sign, adds to a list by the meaning of its name. -/
def adds {α : Type} (legend : Legend) (negated : Bool) (f : PatternTerm → Meaning → List α)
    (term : PatternTerm) : List α :=
  match legend.lookup? term.name with
  | none => []
  | some meaning => if term.negated = negated then f term meaning else []

end PatternTerm

namespace CellPattern

/-- Every name in the cell is defined. -/
def IsNamed (legend : Legend) (pattern : CellPattern) : Prop :=
  ∀ term ∈ pattern, (legend.lookup? term.name).isSome = true

instance (legend : Legend) (pattern : CellPattern) : Decidable (pattern.IsNamed legend) :=
  inferInstanceAs (Decidable (∀ term ∈ pattern, (legend.lookup? term.name).isSome = true))

/-- The entries of the positive terms of a cell, in order. -/
def entries (legend : Legend) (pattern : CellPattern) : List PatternEntry :=
  pattern.flatMap (PatternTerm.adds legend false fun term meaning ↦
    PatternEntry.ofMeaning term.movement term.name meaning)

/-- What the negated terms of a left cell forbid. -/
def exclusions (legend : Legend) (along : Direction) (pattern : CellPattern) : List Exclusion :=
  pattern.flatMap (PatternTerm.adds legend true fun term meaning ↦
    [⟨meaning.objects, .ofWord along term.movement⟩])

/-- What the negated terms of a right cell take out. -/
def clears (legend : Legend) (pattern : CellPattern) : List ObjectSet :=
  pattern.flatMap (PatternTerm.adds legend true fun _ meaning ↦ [meaning.objects])

variable {legend : Legend} {term : PatternTerm} {meaning : Meaning}

theorem entries_singleton (h : legend.lookup? term.name = some meaning) :
    entries legend [term] =
      if term.negated = false then PatternEntry.ofMeaning term.movement term.name meaning
      else [] := by
  rw [entries, List.flatMap_singleton, PatternTerm.adds, h]

theorem exclusions_singleton (h : legend.lookup? term.name = some meaning) (along : Direction) :
    exclusions legend along [term] =
      if term.negated = true then [⟨meaning.objects, .ofWord along term.movement⟩] else [] := by
  rw [exclusions, List.flatMap_singleton, PatternTerm.adds, h]

theorem clears_singleton (h : legend.lookup? term.name = some meaning) :
    clears legend [term] = if term.negated = true then [meaning.objects] else [] := by
  rw [clears, List.flatMap_singleton, PatternTerm.adds, h]

theorem entries_cons (legend : Legend) (term : PatternTerm) (pattern : CellPattern) :
    entries legend (term :: pattern) = entries legend [term] ++ entries legend pattern :=
  (List.flatMap_append : ([term] ++ pattern).flatMap _ = _)

theorem exclusions_cons (legend : Legend) (along : Direction) (term : PatternTerm)
    (pattern : CellPattern) : exclusions legend along (term :: pattern) =
      exclusions legend along [term] ++ exclusions legend along pattern :=
  (List.flatMap_append : ([term] ++ pattern).flatMap _ = _)

theorem clears_cons (legend : Legend) (term : PatternTerm) (pattern : CellPattern) :
    clears legend (term :: pattern) = clears legend [term] ++ clears legend pattern :=
  (List.flatMap_append : ([term] ++ pattern).flatMap _ = _)

end CellPattern

/-- The requirements of the cell for a given set. -/
def RuleCell.requirementsFor (cell : RuleCell) (objects : ObjectSet) : List Requirement :=
  cell.requirements.filter fun requirement ↦ requirement.objects = objects

/-- The cell pairs the entries of its two sides. -/
structure RuleCell.IsPaired (along : Direction) (left right : List PatternEntry)
    (cell : RuleCell) : Prop where
  /-- Every left entry has its requirement, in order. -/
  requires : (cell.requirements.map fun requirement ↦ (requirement.objects, requirement.test)) =
    left.map fun entry ↦ (entry.objects, entry.test along)
  /-- For each set, the entries in the same place of the two sides are partners. -/
  keeps : ∀ (objects : ObjectSet) (k : Nat) (requirement : Requirement)
      (entry partner : PatternEntry),
    (cell.requirementsFor objects)[k]? = some requirement →
    (PatternEntry.among objects left)[k]? = some entry →
    (PatternEntry.among objects right)[k]? = some partner →
      entry.Keeps along partner requirement.fate
  /-- Where the right side has no entry left, the object is removed. -/
  removes : ∀ (objects : ObjectSet) (k : Nat) (requirement : Requirement),
    (cell.requirementsFor objects)[k]? = some requirement →
    (PatternEntry.among objects right)[k]? = none → requirement.fate = .remove
  /-- The right entries without a partner are spawned, each of them once and in order. -/
  spawns : (cell.spawns.map fun spawn ↦ (some spawn.object, spawn.movement)) =
    (PatternEntry.unpaired left right).map fun entry ↦ (entry.object?, entry.intent? along)

/-! ## The entries for one set -/

namespace PatternEntry

variable {along : Direction} {left right : List PatternEntry} {entry partner : PatternEntry}
  {objects other : ObjectSet}

@[simp] theorem isFor_iff : entry.isFor objects = true ↔ entry.objects = objects :=
  decide_eq_true_iff

@[simp] theorem among_cons_self (entry : PatternEntry) (entries : List PatternEntry) :
    among entry.objects (entry :: entries) = entry :: among entry.objects entries :=
  List.filter_cons_of_pos (isFor_iff.mpr rfl)

theorem among_cons_of_ne (h : entry.objects ≠ objects) (entries : List PatternEntry) :
    among objects (entry :: entries) = among objects entries :=
  List.filter_cons_of_neg fun hfor ↦ h (isFor_iff.mp hfor)

@[simp] theorem among_append (objects : ObjectSet) (entries more : List PatternEntry) :
    among objects (entries ++ more) = among objects entries ++ among objects more :=
  List.filter_append ..

theorem among_concat_of_ne (h : entry.objects ≠ objects) (entries : List PatternEntry) :
    among objects (entries ++ [entry]) = among objects entries := by
  rw [among_append, among_cons_of_ne h]
  exact List.append_nil _

/-- To take the first entry for a set away. -/
theorem among_eraseP (objects other : ObjectSet) (entries : List PatternEntry) :
    among objects (entries.eraseP (isFor other)) =
      if other = objects then (among objects entries).tail else among objects entries := by
  induction entries with
  | nil => exact (ite_self []).symm
  | cons entry entries ih =>
    by_cases hentry : entry.objects = other
    · rw [List.eraseP_cons_of_pos (isFor_iff.mpr hentry)]
      subst hentry
      split
      · next heq => rw [← heq, among_cons_self, List.tail_cons]
      · next hne => rw [among_cons_of_ne hne]
    · rw [List.eraseP_cons_of_neg fun hfor ↦ hentry (isFor_iff.mp hfor)]
      by_cases hobjects : entry.objects = objects
      · subst hobjects
        rw [among_cons_self, ih, if_neg (Ne.symm hentry), if_neg (Ne.symm hentry), among_cons_self]
      · rw [among_cons_of_ne hobjects, ih, among_cons_of_ne hobjects]

theorem eraseP_of_among_nil (h : among objects right = []) :
    right.eraseP (isFor objects) = right :=
  List.eraseP_of_forall_not (List.filter_eq_nil_iff.mp h)

theorem eraseP_concat_self (h : among entry.objects right = []) :
    (right ++ [entry]).eraseP (isFor entry.objects) = right := by
  rw [List.eraseP_append_right _ (List.filter_eq_nil_iff.mp h),
    List.eraseP_cons_of_pos (isFor_iff.mpr rfl), List.append_nil]

theorem eraseP_concat_of_mem (h : among objects right ≠ []) :
    (right ++ [entry]).eraseP (isFor objects) = right.eraseP (isFor objects) ++ [entry] := by
  obtain ⟨earlier, hearlier⟩ := List.exists_mem_of_ne_nil _ h
  obtain ⟨hmem, hfor⟩ := List.mem_filter.mp hearlier
  exact List.eraseP_append_left hfor _ hmem

theorem eraseP_concat_of_ne (h : entry.objects ≠ objects) :
    (right ++ [entry]).eraseP (isFor objects) = right.eraseP (isFor objects) ++ [entry] := by
  by_cases hnil : among objects right = []
  · rw [List.eraseP_append_right _ (List.filter_eq_nil_iff.mp hnil), eraseP_of_among_nil hnil,
      List.eraseP_cons_of_neg fun hfor ↦ h (isFor_iff.mp hfor), List.eraseP_nil]
  · exact eraseP_concat_of_mem hnil

theorem unpaired_concat (left right : List PatternEntry) (entry : PatternEntry) :
    unpaired left (right ++ [entry]) = unpaired left right ++
      if (among entry.objects left).length ≤ (among entry.objects right).length then [entry]
      else [] := by
  rw [unpaired, List.zipIdx_append, List.filter_append, List.map_append]
  congr 1
  · refine congrArg (List.map Prod.fst) (List.filter_congr ?_)
    rintro ⟨earlier, place⟩ hmem
    have hplace := (List.getElem?_eq_some_iff.mp (List.mem_zipIdx_iff_getElem?.mp hmem)).1
    dsimp only
    rw [List.take_append_of_le_length (Nat.le_of_lt hplace)]
  · rw [Nat.zero_add, List.zipIdx_singleton]
    by_cases h : (among entry.objects left).length ≤ (among entry.objects right).length
    · rw [if_pos h, List.filter_cons_of_pos, List.filter_nil, List.map_cons, List.map_nil]
      simpa only [List.take_left] using decide_eq_true h
    · rw [if_neg h, List.filter_cons_of_neg, List.filter_nil, List.map_nil]
      simpa only [List.take_left, decide_eq_true_iff] using h

/-! ## What becomes of an entry -/

/-- What becomes of the object of a left entry, given its partner. -/
def fate (along : Direction) (entry : PatternEntry) : Option PatternEntry → Fate
  | none => .remove
  | some partner => .keep (.ofWord along partner.movement (entry.test along))

/-- The object that a right entry puts into the cell if it has no partner. -/
def spawn? (along : Direction) (entry : PatternEntry) : Option Spawn :=
  entry.object?.map fun object ↦ ⟨object, entry.intent? along⟩

theorem spawn?_of_object? {object : ObjectId} (h : entry.object? = some object) :
    entry.spawn? along = some ⟨object, entry.intent? along⟩ := by
  rw [spawn?, h, Option.map_some]

@[simp] theorem isConstrained_test : (entry.test along).isConstrained = entry.movement.isSome := by
  rw [test]
  cases entry.movement with
  | none => rfl
  | some word =>
    rw [MovementTest.ofWord]
    cases word.movement? along with
    | none => rfl
    | some movement => rfl

theorem keeps_fate (along : Direction) (entry partner : PatternEntry) :
    entry.Keeps along partner (entry.fate along (some partner)) := by
  rw [fate]
  cases hpartner : partner.movement with
  | none =>
    rw [IntentWrite.ofWord, isConstrained_test]
    cases hentry : entry.movement with
    | none => exact .leaves hpartner hentry
    | some word => exact .spends hpartner (by rw [hentry]; rfl)
  | some word =>
    rw [IntentWrite.ofWord]
    cases hword : word.movement? along with
    | none => exact .takes hpartner hword
    | some movement => exact .gives (by rw [intent?, hpartner, Option.bind_some, hword])

end PatternEntry

/-! ## Requirements with their fates -/

namespace RuleCell

open PatternEntry

variable {line : Nat} {along : Direction} {exclusions : List Exclusion} {clears : List ObjectSet}
  {left right : List PatternEntry}

/-- The requirements of the left entries, each kept by the first right entry for its objects that
no left entry before it has taken. -/
def paired (along : Direction) : List PatternEntry → List PatternEntry → List Requirement
  | [], _ => []
  | entry :: left, right =>
    ⟨entry.objects, entry.test along, entry.fate along (among entry.objects right).head?⟩ ::
      paired along left (right.eraseP (isFor entry.objects))

/-- One more right entry keeps the first requirement for its objects that is free, and there is one
if the left side has more entries for them. -/
theorem claim?_paired (along : Direction) (left right : List PatternEntry) (entry : PatternEntry) :
    claim? entry.objects (.ofWord along entry.movement) (paired along left right) =
      if (among entry.objects right).length < (among entry.objects left).length then
        some (paired along left (right ++ [entry]))
      else none := by
  induction left generalizing right with
  | nil => exact (if_neg (Nat.not_lt_zero _)).symm
  | cons first left ih =>
    rw [paired, claim?, ih, paired, among_eraseP]
    by_cases hfirst : first.objects = entry.objects
    · rw [← hfirst, among_cons_self, if_pos rfl, hfirst, among_append]
      cases htaken : among entry.objects right with
      | nil =>
        -- the requirement of the first entry is free
        rw [if_pos ⟨rfl, rfl⟩, List.length_nil,
          if_pos (List.length_pos_iff.mpr (List.cons_ne_nil _ _)), eraseP_of_among_nil htaken,
          eraseP_concat_self htaken, among_cons_self]
        rfl
      | cons partner rest =>
        have hne : among entry.objects right ≠ [] := by rw [htaken]; exact List.cons_ne_nil _ _
        rw [if_neg fun h ↦ Fate.noConfusion h.1, eraseP_concat_of_mem hne, List.tail_cons,
          List.length_cons, List.length_cons]
        simp only [Nat.succ_lt_succ_iff]
        split <;> rfl
    · rw [if_neg fun h ↦ hfirst h.2, if_neg hfirst, among_cons_of_ne hfirst,
        among_concat_of_ne (Ne.symm hfirst), eraseP_concat_of_ne (Ne.symm hfirst)]
      split <;> rfl

/-- The requirements for one set have the fates that the right entries for it give them, place by
place. -/
theorem getElem?_filter_paired (along : Direction) (left right : List PatternEntry)
    (objects : ObjectSet) (k : Nat) :
    ((paired along left right).filter fun requirement ↦ requirement.objects = objects)[k]? =
      (among objects left)[k]?.map fun entry ↦
        ⟨objects, entry.test along, entry.fate along (among objects right)[k]?⟩ := by
  induction left generalizing right k with
  | nil => rfl
  | cons first left ih =>
    by_cases hfirst : first.objects = objects
    · subst hfirst
      rw [paired, List.filter_cons, if_pos (decide_eq_true rfl), among_cons_self]
      cases k with
      | zero =>
        rw [List.getElem?_cons_zero, List.getElem?_cons_zero, List.head?_eq_getElem?]
        rfl
      | succ k =>
        rw [List.getElem?_cons_succ, List.getElem?_cons_succ, ih, among_eraseP, if_pos rfl,
          List.getElem?_tail]
    · simp [paired, among_cons_of_ne hfirst, ih, among_eraseP, hfirst]

/-- One more right entry changes nothing if the left entries for its objects all have partners. -/
theorem paired_concat_of_full {entry : PatternEntry}
    (h : (among entry.objects left).length ≤ (among entry.objects right).length) :
    paired along left (right ++ [entry]) = paired along left right := by
  induction left generalizing right with
  | nil => rfl
  | cons first left ih =>
    rw [paired, paired]
    by_cases hfirst : first.objects = entry.objects
    · rw [← hfirst, among_cons_self, hfirst, List.length_cons] at h
      have hne : among entry.objects right ≠ [] :=
        List.ne_nil_of_length_pos (Nat.lt_of_lt_of_le (Nat.succ_pos _) h)
      rw [hfirst, among_append, List.head?_append_of_ne_nil _ hne, eraseP_concat_of_mem hne, ih]
      rw [among_eraseP, if_pos rfl, List.length_tail]
      exact Nat.le_sub_one_of_lt h
    · rw [among_cons_of_ne hfirst] at h
      rw [among_concat_of_ne (Ne.symm hfirst), eraseP_concat_of_ne (Ne.symm hfirst), ih]
      rwa [among_eraseP, if_neg hfirst]

theorem map_test_paired (along : Direction) (left right : List PatternEntry) :
    ((paired along left right).map fun requirement ↦ (requirement.objects, requirement.test)) =
      left.map fun entry ↦ (entry.objects, entry.test along) := by
  induction left generalizing right with
  | nil => rfl
  | cons first left ih => rw [paired, List.map_cons, List.map_cons, ih]

theorem paired_right_nil (along : Direction) (left : List PatternEntry) :
    paired along left [] =
      left.map fun entry ↦ ⟨entry.objects, entry.test along, .remove⟩ := by
  induction left with
  | nil => rfl
  | cons first left ih =>
    rw [paired, List.eraseP_nil, ih, List.map_cons]
    rfl

theorem paired_append_right_nil (along : Direction) (left more : List PatternEntry) :
    paired along (left ++ more) [] = paired along left [] ++ paired along more [] := by
  rw [paired_right_nil, paired_right_nil, paired_right_nil, List.map_append]

/-! ## One entry after the other -/

/-- The cell of two sides, if every right entry without a partner is for an object. -/
def pairUp (line : Nat) (along : Direction) (exclusions : List Exclusion)
    (clears : List ObjectSet) (left right : List PatternEntry) : Except DefinitionError RuleCell :=
  match (unpaired left right).find? isProperty with
  | some entry => .error (.unboundProperty line entry.name)
  | none => .ok ⟨paired along left right, exclusions, clears,
      (unpaired left right).filterMap (spawn? along)⟩

/-- Adds a right entry to a cell. -/
def addEntry (line : Nat) (along : Direction) (cell : RuleCell) (entry : PatternEntry) :
    Except DefinitionError RuleCell :=
  match claim? entry.objects (.ofWord along entry.movement) cell.requirements with
  | some requirements => .ok { cell with requirements }
  | none =>
    match entry.spawn? along with
    | some spawn => .ok { cell with spawns := cell.spawns ++ [spawn] }
    | none => .error (.unboundProperty line entry.name)

theorem pairUp_bind_addEntry (line : Nat) (along : Direction) (exclusions : List Exclusion)
    (clears : List ObjectSet) (left right : List PatternEntry) (entry : PatternEntry) :
    (pairUp line along exclusions clears left right >>= (addEntry line along · entry)) =
      pairUp line along exclusions clears left (right ++ [entry]) := by
  rw [pairUp, pairUp, unpaired_concat, List.find?_append, List.filterMap_append]
  cases (unpaired left right).find? isProperty with
  | some unbound => rfl
  | none =>
    change addEntry line along _ entry = _
    rw [addEntry, claim?_paired, Option.none_or]
    by_cases hfree : (among entry.objects right).length < (among entry.objects left).length
    · rw [if_pos hfree, if_neg (Nat.not_le_of_lt hfree), List.filterMap_nil, List.append_nil]
      rfl
    · rw [if_neg hfree, if_pos (Nat.le_of_not_lt hfree), List.find?_singleton, isProperty]
      cases hobject : entry.object? with
      | none =>
        rw [spawn?, hobject]
        rfl
      | some object =>
        have hspawn : entry.spawn? along = _ := spawn?_of_object? hobject
        simp [hspawn, paired_concat_of_full (Nat.le_of_not_lt hfree)]

theorem pairUp_bind_foldlM_addEntry (line : Nat) (along : Direction) (exclusions : List Exclusion)
    (clears : List ObjectSet) (left right entries : List PatternEntry) :
    (pairUp line along exclusions clears left right >>=
        (entries.foldlM (addEntry line along) ·)) =
      pairUp line along exclusions clears left (right ++ entries) := by
  induction entries generalizing right with
  | nil =>
    rw [List.append_nil]
    exact bind_pure _
  | cons entry entries ih =>
    simp only [List.foldlM_cons]
    rw [← bind_assoc, pairUp_bind_addEntry, ih, List.append_assoc, List.singleton_append]

/-! ## One term after the other -/

section Terms

variable {legend : Legend} {term : PatternTerm} {meaning : Meaning} {cell : RuleCell}

theorem addLeft_eq (h : legend.lookup? term.name = some meaning) :
    addLeft legend line along cell term =
      if term.negated then
        .ok { cell with
          exclusions := cell.exclusions ++ [⟨meaning.objects, .ofWord along term.movement⟩] }
      else
        .ok { cell with
          requirements := cell.requirements ++
            paired along (ofMeaning term.movement term.name meaning) [] } := by
  rw [addLeft, Legend.resolve, h]
  change (if term.negated then _ else _) = _
  split
  · rfl
  · rw [paired_right_nil]
    cases meaning with
    | object id => rfl
    | property members => rfl
    | aggregate members =>
      rw [requiredSets, ofMeaning, List.map_map, List.map_map]
      rfl

theorem addEntry_object (line : Nat) (along : Direction) (cell : RuleCell)
    (word : Option MovementWord) (name : String) (id : ObjectId) :
    addEntry line along cell ⟨.single id, some id, word, name⟩ =
      .ok (cell.keepOrSpawn along word id) := by
  rw [addEntry, keepOrSpawn]
  dsimp only
  cases claim? (.single id) (.ofWord along word) cell.requirements with
  | none => rfl
  | some requirements => rfl

theorem addRight_eq (h : legend.lookup? term.name = some meaning) :
    addRight legend line along cell term =
      if term.negated then .ok { cell with clears := cell.clears ++ [meaning.objects] }
      else (ofMeaning term.movement term.name meaning).foldlM (addEntry line along) cell := by
  rw [addRight, Legend.resolve, h]
  change (if term.negated then _ else _) = _
  split
  · rfl
  · cases meaning with
    | object id =>
      rw [ofMeaning, List.foldlM_cons, addEntry_object]
      rfl
    | property members =>
      simp only [ofMeaning, List.foldlM_cons, List.foldlM_nil, bind_pure]
      rw [addEntry]
      dsimp only
      cases claim? members (.ofWord along term.movement) cell.requirements with
      | none => rfl
      | some requirements => rfl
    | aggregate members =>
      rw [ofMeaning, List.foldlM_map]
      refine (foldlM_eq_ok_foldl (P := fun _ ↦ True) (fun cell id _ _ ↦ ?_) trivial).symm
      exact ⟨addEntry_object .., trivial⟩

theorem pairUp_bind_addRight (h : (legend.lookup? term.name).isSome = true) (line : Nat)
    (along : Direction) (exclusions : List Exclusion) (clears : List ObjectSet)
    (left right : List PatternEntry) :
    (pairUp line along exclusions clears left right >>= (addRight legend line along · term)) =
      pairUp line along exclusions (clears ++ CellPattern.clears legend [term]) left
        (right ++ CellPattern.entries legend [term]) := by
  obtain ⟨meaning, hmeaning⟩ := Option.isSome_iff_exists.mp h
  rw [CellPattern.clears_singleton hmeaning, CellPattern.entries_singleton hmeaning]
  simp only [addRight_eq hmeaning]
  cases term.negated with
  | true =>
    rw [if_pos rfl, if_neg Bool.true_eq_false.mp, List.append_nil, pairUp, pairUp]
    cases (unpaired left right).find? isProperty with
    | none => rfl
    | some unbound => rfl
  | false =>
    rw [if_neg Bool.false_ne_true, List.append_nil]
    exact pairUp_bind_foldlM_addEntry ..

theorem pairUp_bind_foldlM_addRight {pattern : CellPattern} (h : pattern.IsNamed legend)
    (line : Nat) (along : Direction) (exclusions : List Exclusion) (clears : List ObjectSet)
    (left right : List PatternEntry) :
    (pairUp line along exclusions clears left right >>=
        (pattern.foldlM (addRight legend line along) ·)) =
      pairUp line along exclusions (clears ++ pattern.clears legend) left
        (right ++ pattern.entries legend) := by
  induction pattern generalizing clears right with
  | nil =>
    rw [CellPattern.clears, CellPattern.entries, List.flatMap_nil, List.flatMap_nil,
      List.append_nil, List.append_nil]
    exact bind_pure _
  | cons term pattern ih =>
    obtain ⟨hterm, hpattern⟩ := List.forall_mem_cons.mp h
    simp only [List.foldlM_cons]
    rw [← bind_assoc, pairUp_bind_addRight hterm, ih hpattern, List.append_assoc,
      List.append_assoc, ← CellPattern.clears_cons, ← CellPattern.entries_cons]

theorem foldlM_addLeft {pattern : CellPattern} (h : pattern.IsNamed legend) (line : Nat)
    (along : Direction) (exclusions : List Exclusion) (left : List PatternEntry) :
    pattern.foldlM (addLeft legend line along) ⟨paired along left [], exclusions, [], []⟩ =
      .ok ⟨paired along (left ++ pattern.entries legend) [],
        exclusions ++ pattern.exclusions legend along, [], []⟩ := by
  induction pattern generalizing exclusions left with
  | nil =>
    simp [CellPattern.exclusions, CellPattern.entries]
  | cons term pattern ih =>
    obtain ⟨hterm, hpattern⟩ := List.forall_mem_cons.mp h
    obtain ⟨meaning, hmeaning⟩ := Option.isSome_iff_exists.mp hterm
    rw [List.foldlM_cons, addLeft_eq hmeaning, CellPattern.entries_cons,
      CellPattern.exclusions_cons, ← List.append_assoc, ← List.append_assoc,
      CellPattern.entries_singleton hmeaning, CellPattern.exclusions_singleton hmeaning]
    cases term.negated with
    | true =>
      rw [if_pos rfl, if_neg Bool.true_eq_false.mp, List.append_nil]
      exact ih hpattern _ left
    | false =>
      rw [if_neg Bool.false_ne_true, if_pos rfl, if_neg Bool.false_ne_true, List.append_nil,
        ← paired_append_right_nil]
      exact ih hpattern exclusions _

end Terms

/-! ## Whole cells -/

theorem isSome_lookup?_of_resolve {legend : Legend} {name : String} {meaning : Meaning}
    (h : legend.resolve line name = .ok meaning) : (legend.lookup? name).isSome = true :=
  Option.isSome_of_eq_some (Legend.resolve_eq_ok_iff.mp h)

variable {legend : Legend} {left right : CellPattern}

/-- If all names are defined, the right side of a cell is paired with the left one. -/
theorem ofPattern_eq (hleft : left.IsNamed legend) (hright : right.IsNamed legend) (line : Nat)
    (along : Direction) :
    ofPattern legend line along left (some right) =
      pairUp line along (left.exclusions legend along) (right.clears legend)
        (left.entries legend) (right.entries legend) := by
  rw [ofPattern, empty]
  change (left.foldlM (addLeft legend line along) ⟨paired along [] [], [], [], []⟩ >>= _) = _
  rw [foldlM_addLeft hleft]
  exact pairUp_bind_foldlM_addRight hright line along (left.exclusions legend along) [] _ []

theorem isNamed_of_ofPattern_eq_ok {cell : RuleCell}
    (h : ofPattern legend line along left (some right) = .ok cell) :
    left.IsNamed legend ∧ right.IsNamed legend := by
  obtain ⟨before, hleft, hright⟩ := bind_eq_ok_iff.mp h
  constructor
  · intro term hterm
    obtain ⟨_, _, hadd⟩ := exists_step_of_foldlM_eq_ok hleft hterm
    obtain ⟨meaning, hresolve, -⟩ := bind_eq_ok_iff.mp hadd
    exact isSome_lookup?_of_resolve hresolve
  · intro term hterm
    obtain ⟨_, _, hadd⟩ := exists_step_of_foldlM_eq_ok hright hterm
    obtain ⟨meaning, hresolve, -⟩ := bind_eq_ok_iff.mp hadd
    exact isSome_lookup?_of_resolve hresolve

theorem map_filterMap_spawn? (along : Direction) {entries : List PatternEntry}
    (h : ∀ entry ∈ entries, entry.object?.isSome = true) :
    ((entries.filterMap (spawn? along)).map fun spawn ↦ (some spawn.object, spawn.movement)) =
      entries.map fun entry ↦ (entry.object?, entry.intent? along) := by
  induction entries with
  | nil => rfl
  | cons entry entries ih =>
    obtain ⟨hentry, hentries⟩ := List.forall_mem_cons.mp h
    obtain ⟨object, hobject⟩ := Option.isSome_iff_exists.mp hentry
    rw [List.filterMap_cons_some (spawn?_of_object? hobject), List.map_cons, List.map_cons,
      ih hentries, hobject]

theorem isPaired_of_pairUp_eq_ok {leftEntries rightEntries : List PatternEntry} {cell : RuleCell}
    (h : pairUp line along exclusions clears leftEntries rightEntries = .ok cell) :
    cell.IsPaired along leftEntries rightEntries := by
  rw [pairUp] at h
  split at h
  · cases h
  · next hbound =>
    cases h
    refine ⟨map_test_paired .., ?_, ?_, map_filterMap_spawn? along fun entry hentry ↦ ?_⟩
    · intro objects k requirement entry partner hrequirement hentry hpartner
      rw [requirementsFor, getElem?_filter_paired, hentry, hpartner,
        Option.map_some] at hrequirement
      cases hrequirement
      exact keeps_fate along entry partner
    · intro objects k requirement hrequirement hpartner
      rw [requirementsFor, getElem?_filter_paired, hpartner] at hrequirement
      obtain ⟨entry, -, rfl⟩ := Option.map_eq_some_iff.mp hrequirement
      rfl
    · have hsome := List.find?_eq_none.mp hbound entry hentry
      rwa [isProperty, Option.isNone_iff_eq_none, ← ne_eq, ← Option.isSome_iff_ne_none] at hsome

end RuleCell

/-! ## The pairing of a line -/

/-- **The sides of a cell are paired exactly.** An accepted cell keeps, removes and spawns what the
pairing of its entries says. If all names are defined, a cell is refused exactly when a property is
left over on the right, for the first such entry. -/
theorem RuleCell.ofPattern_pairs (legend : Legend) (line : Nat) (along : Direction)
    (left right : CellPattern) :
    (∀ cell, ofPattern legend line along left (some right) = .ok cell →
      cell.IsPaired along (left.entries legend) (right.entries legend)) ∧
    (left.IsNamed legend → right.IsNamed legend →
      ((∃ name, ofPattern legend line along left (some right) =
          .error (.unboundProperty line name)) ↔
        ∃ entry ∈ PatternEntry.unpaired (left.entries legend) (right.entries legend),
          entry.isProperty = true) ∧
      ∀ error, ofPattern legend line along left (some right) = .error error →
        ∃ entry, (PatternEntry.unpaired (left.entries legend) (right.entries legend)).find?
            PatternEntry.isProperty = some entry ∧
          error = .unboundProperty line entry.name) := by
  refine ⟨fun cell hcell ↦ ?_, fun hleft hright ↦ ?_⟩
  · obtain ⟨hleft, hright⟩ := isNamed_of_ofPattern_eq_ok hcell
    rw [ofPattern_eq hleft hright] at hcell
    exact isPaired_of_pairUp_eq_ok hcell
  · rw [ofPattern_eq hleft hright, pairUp]
    cases hfind : (PatternEntry.unpaired (left.entries legend) (right.entries legend)).find?
        PatternEntry.isProperty with
    | none =>
      constructor
      · constructor
        · rintro ⟨name, herror⟩
          cases herror
        · rintro ⟨entry, hentry, hproperty⟩
          exact absurd hproperty (List.find?_eq_none.mp hfind entry hentry)
      · intro error herror
        cases herror
    | some unbound =>
      refine ⟨⟨fun _ ↦ ⟨unbound, List.mem_of_find?_eq_some hfind, List.find?_some hfind⟩,
        fun _ ↦ ⟨unbound.name, rfl⟩⟩, fun error herror ↦ ⟨unbound, rfl, ?_⟩⟩
      exact (Except.error.inj herror).symm

/-- Someone walks past a crate and a wall: the hero is the player by another name, the heap is the
crate and a second wall, and something solid needs a counterpart on the left. -/
theorem RuleCell.ofPattern_pairs_heap :
    let player : ObjectId := ⟨1⟩
    let crate : ObjectId := ⟨2⟩
    let wall : ObjectId := ⟨3⟩
    let solid := ObjectSet.ofList [crate, wall]
    let legend : Legend := .ofList [("player", Meaning.object player), ("hero", .object player),
      ("crate", .object crate), ("wall", .object wall), ("solid", .property solid),
      ("heap", .aggregate [crate, wall])]
    let left : CellPattern := [⟨false, some (.relative .ahead), "Player"⟩, ⟨false, none, "Solid"⟩,
      ⟨false, none, "Crate"⟩]
    let right : CellPattern := [⟨false, none, "Heap"⟩, ⟨false, none, "Hero"⟩]
    let cell : RuleCell := ⟨[⟨.single player, .exactly (.toward .up), .keep .clear⟩,
        ⟨solid, .any, .remove⟩, ⟨.single crate, .any, .keep .unchanged⟩], [], [],
      [⟨wall, none⟩]⟩
    ofPattern legend 1 .up left (some right) = .ok cell ∧
      cell.IsPaired .up (left.entries legend) (right.entries legend) ∧
      ∃ name, ofPattern legend 1 .up [⟨false, none, "Crate"⟩] (some [⟨false, none, "Solid"⟩]) =
        .error (.unboundProperty 1 name) := by
  intro player crate wall solid legend left right cell
  have hcell : ofPattern legend 1 .up left (some right) = .ok cell := by decide +kernel
  refine ⟨hcell, (ofPattern_pairs legend 1 .up left right).1 cell hcell,
    ((ofPattern_pairs legend 1 .up _ _).2 ?_ ?_).1.mpr ?_⟩
  · decide +kernel
  · decide +kernel
  · decide +kernel

end TilePuzzle
