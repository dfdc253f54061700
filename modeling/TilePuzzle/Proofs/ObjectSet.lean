import Mathlib.Data.List.Destutter
import TilePuzzle.Definition.Expansion

/-!
# Sets of objects as sorted stores

A set of objects can be kept as a plain store of ids in which an object is looked up by halving: an
object that is not found comes with the place where it belongs, and there it is inserted. A list is
collected by sorting it and leaving out what repeats the id before it. All of this relies on the
order of the store, which nothing in its type ensures.

## The invariants

The search by halving keeps two bounds: everything below the lower one is smaller than the object,
and everything from the upper one on is larger (`tells_seek`). What is inserted in the place that it
finds keeps the store increasing.

## Constructions

However a store was made (`Construction`), it is increasing, and it is the list of members of the
set that was made in the same way. So the search finds just what was put in, and two sets are equal
exactly if the same objects were put in; in particular the two sides of a rule are paired by the
members of their sets.
-/

namespace TilePuzzle

namespace ObjectSet

/-! ## Members -/

theorem contains_iff_mem {s : ObjectSet} {id : ObjectId} : s.contains id = true ↔ id ∈ s.ids := by
  rw [contains, List.contains_iff_mem]

@[simp] theorem contains_extend {s : ObjectSet} {ids : List ObjectId} {id : ObjectId} :
    (s.extend ids).contains id = true ↔ s.contains id = true ∨ id ∈ ids := by
  induction ids generalizing s with
  | nil => simp [extend]
  | cons other ids ih =>
    rw [extend, List.foldl_cons, ← extend, ih, contains_insert, List.mem_cons, or_assoc,
      or_left_comm]

theorem eq_iff_contains {s t : ObjectSet} :
    s = t ↔ ∀ id, s.contains id = true ↔ t.contains id = true :=
  ⟨fun h _ ↦ h ▸ Iff.rfl, eq_of_contains_iff⟩

theorem only?_eq_some_iff {s : ObjectSet} {id : ObjectId} :
    s.only? = some id ↔ ∀ x, s.contains x = true ↔ x = id := by
  have hsingle : s.only? = some id ↔ s = single id := by
    obtain ⟨ids, hids⟩ := s
    match ids, hids with
    | [], _ => simp [only?, single]
    | [x], _ => simp [only?, single]
    | _ :: _ :: _, _ => simp [only?, single]
  have hcontains : ∀ x, (single id).contains x = true ↔ x = id := by simp [contains, single]
  rw [hsingle, eq_iff_contains]
  simp only [hcontains]

/-! ## Search by halving -/

/-- The place where an object was found, or the place where it belongs. -/
inductive Place
  | found (index : Nat)
  | missing (index : Nat)
deriving DecidableEq

/-- Whether the object was found. -/
def Place.isFound : Place → Bool
  | found _ => true
  | missing _ => false

/-- Looks for an object among the ids from `low` on and below `high`. -/
def seek (ids : List ObjectId) (id : ObjectId) (low high : Nat) (h : high ≤ ids.length) : Place :=
  if _hlt : low < high then
    if ids[(low + high) / 2] < id then
      seek ids id ((low + high) / 2 + 1) high h
    else if id < ids[(low + high) / 2] then
      seek ids id low ((low + high) / 2) (by omega)
    else
      .found ((low + high) / 2)
  else
    .missing low
termination_by high - low

/-- Looks for an object in a whole store. -/
def find (ids : List ObjectId) (id : ObjectId) : Place := seek ids id 0 ids.length (Nat.le_refl _)

/-- Inserts an object into a store where it belongs, unless it is found. -/
def enter (ids : List ObjectId) (id : ObjectId) : List ObjectId :=
  match find ids id with
  | .found _ => ids
  | .missing index => ids.insertIdx index id

/-- The store of a list: it is sorted, and an id that is equal to the one before is left out. -/
def collect (ids : List ObjectId) : List ObjectId :=
  (ids.mergeSort fun a b ↦ a.index ≤ b.index).destutter (· ≠ ·)

/-- What a place tells of an increasing store: the object is there, or it belongs between the
smaller and the larger ones. -/
inductive Place.Tells (ids : List ObjectId) (id : ObjectId) : Place → Prop
  | found {front back : List ObjectId} (h : ids = front ++ id :: back) :
      Tells ids id (.found front.length)
  | missing {front back : List ObjectId} (h : ids = front ++ back) (hfront : ∀ x ∈ front, x < id)
      (hback : ∀ x ∈ back, id < x) : Tells ids id (.missing front.length)

section Search

variable {ids : List ObjectId} {id : ObjectId} {middle : Nat}

theorem forall_take_lt (hids : ids.Pairwise (· < ·)) (h : middle < ids.length)
    (hlt : ids[middle] < id) : ∀ x ∈ ids.take (middle + 1), x < id := by
  intro x hx
  obtain ⟨i, hi, rfl⟩ := List.mem_take_iff_getElem.mp hx
  rcases Nat.lt_or_eq_of_le (show i ≤ middle by omega) with hlow | rfl
  · exact ObjectId.lt_trans (List.pairwise_iff_getElem.mp hids i middle _ h hlow) hlt
  · exact hlt

theorem forall_drop_lt (hids : ids.Pairwise (· < ·)) (h : middle < ids.length)
    (hlt : id < ids[middle]) : ∀ x ∈ ids.drop middle, id < x := by
  intro x hx
  obtain ⟨i, hi, rfl⟩ := List.mem_drop_iff_getElem.mp hx
  rcases Nat.eq_zero_or_pos i with rfl | hpos
  · exact hlt
  · exact ObjectId.lt_trans hlt
      (List.pairwise_iff_getElem.mp hids middle (middle + i) h _ (by omega))

/-- The search keeps everything below `low` smaller and everything from `high` on larger. -/
theorem tells_seek (hids : ids.Pairwise (· < ·)) {low high : Nat} (h : high ≤ ids.length)
    (hle : low ≤ high) (hlow : ∀ x ∈ ids.take low, x < id) (hhigh : ∀ x ∈ ids.drop high, id < x) :
    (seek ids id low high h).Tells ids id := by
  fun_induction seek ids id low high h with
  | case1 low high h hlt hsmall ih =>
    exact ih (by omega) (forall_take_lt hids (by omega) hsmall) hhigh
  | case2 low high h hlt _ hlarge ih =>
    exact ih (by omega) hlow (forall_drop_lt hids (by omega) hlarge)
  | case3 low high h hlt hsmall hlarge =>
    have hmiddle : (low + high) / 2 < ids.length := by omega
    have hid : ids[(low + high) / 2] = id := by
      by_contra hne
      exact hlarge (ObjectId.lt_of_not_lt_of_ne hsmall hne)
    have hsplit : ids = ids.take ((low + high) / 2) ++ id :: ids.drop ((low + high) / 2 + 1) := by
      rw [← hid, ← List.drop_eq_getElem_cons hmiddle, List.take_append_drop]
    have hfound := Place.Tells.found hsplit
    rwa [List.length_take_of_le (by omega)] at hfound
  | case4 low high h hlt =>
    obtain rfl : low = high := by omega
    have hmissing := Place.Tells.missing (List.take_append_drop low ids).symm hlow hhigh
    rwa [List.length_take_of_le h] at hmissing

theorem tells_find (hids : ids.Pairwise (· < ·)) (id : ObjectId) :
    (find ids id).Tells ids id :=
  tells_seek hids _ (Nat.zero_le _) (by simp) (by simp)

theorem not_mem_of_forall_gt {ids : List ObjectId} (h : ∀ x ∈ ids, x < id) : id ∉ ids := by
  intro hid
  exact Nat.lt_irrefl _ ((ObjectId.lt_iff id id).mp (h id hid))

theorem isFound_find (hids : ids.Pairwise (· < ·)) (id : ObjectId) :
    (find ids id).isFound = true ↔ id ∈ ids := by
  have htells := tells_find hids id
  generalize find ids id = place at htells
  cases htells with
  | found h =>
    rw [h]
    exact iff_of_true rfl (by simp)
  | missing h hfront hback =>
    rw [h, List.mem_append]
    refine iff_of_false Bool.false_ne_true (not_or.mpr ⟨?_, ?_⟩)
    · exact not_mem_of_forall_gt hfront
    · exact not_mem_of_forall_lt hback

/-! ## The operations on a store -/

theorem insertIdx_length_append (front back : List ObjectId) (id : ObjectId) :
    (front ++ back).insertIdx front.length id = front ++ id :: back := by
  induction front with
  | nil => rfl
  | cons x front ih =>
    simp [ih]

/-- Going through the ids one after the other, an object is inserted in the same place. -/
theorem insertId_append {front back : List ObjectId} (hfront : ∀ x ∈ front, x < id)
    (hback : ∀ x ∈ back, id < x) : insertId id (front ++ back) = front ++ id :: back := by
  induction front with
  | nil =>
    cases back with
    | nil => rfl
    | cons y back =>
      have hlt := hback y List.mem_cons_self
      have hne : id ≠ y := by
        rintro rfl
        exact not_mem_of_forall_lt hback List.mem_cons_self
      simp [insertId, hne, hlt]
  | cons x front ih =>
    rw [List.forall_mem_cons] at hfront
    have hlt := hfront.1
    rw [ObjectId.lt_iff] at hlt
    have hne : id ≠ x := by
      rintro rfl
      exact Nat.lt_irrefl _ hlt
    have hnlt : ¬id < x := by
      rw [ObjectId.lt_iff]
      omega
    simp [insertId, hne, hnlt, ih hfront.2]

theorem enter_eq (hids : ids.Pairwise (· < ·)) (id : ObjectId) :
    enter ids id = insertId id ids := by
  have htells := tells_find hids id
  rw [enter]
  generalize find ids id = place at htells
  cases htells with
  | found h =>
    refine ids_eq_of_mem_iff hids (pairwise_insertId hids) fun x ↦ ?_
    rw [mem_insertId, or_iff_right_of_imp]
    rintro rfl
    simp [h]
  | missing h hfront hback =>
    change ids.insertIdx _ id = _
    rw [h, insertIdx_length_append, insertId_append hfront hback]

end Search

/-- Sorting puts equal ids next to each other, so each of them is left once. -/
theorem collect_eq (ids : List ObjectId) : collect ids = (ofList ids).ids := by
  have hanti : Std.Antisymm fun a b : ObjectId ↦ a.index ≤ b.index :=
    ⟨fun a b hab hba ↦ ObjectId.index_inj.mp (Nat.le_antisymm hab hba)⟩
  have hsorted : (ids.mergeSort fun a b ↦ a.index ≤ b.index).Pairwise
      fun a b ↦ a.index ≤ b.index := by
    have htrans : ∀ a b c : ObjectId, a.index ≤ b.index → b.index ≤ c.index → a.index ≤ c.index :=
      fun _ _ _ ↦ Nat.le_trans
    have htotal : ∀ a b : ObjectId, a.index ≤ b.index ∨ b.index ≤ a.index :=
      fun _ _ ↦ Nat.le_total ..
    simpa using @List.pairwise_mergeSort ObjectId (fun a b ↦ decide (a.index ≤ b.index))
      (by simpa using htrans) (by simpa using htotal) ids
  rw [collect, hsorted.destutter_eq_dedup]
  refine ids_eq_of_mem_iff ?_ (ofList ids).sorted fun id ↦ ?_
  · refine ((hsorted.sublist (List.dedup_sublist _)).and (List.nodup_dedup _)).imp ?_
    rintro a b ⟨hle, hne⟩
    exact (ObjectId.lt_iff a b).mpr (Nat.lt_of_le_of_ne hle (mt ObjectId.index_inj.mp hne))
  · rw [List.mem_dedup, List.mem_mergeSort, ← contains_ofList, contains_iff_mem]

theorem foldl_enter_eq (s : ObjectSet) (ids : List ObjectId) :
    ids.foldl enter s.ids = (s.extend ids).ids := by
  induction ids generalizing s with
  | nil => rfl
  | cons id ids ih =>
    rw [List.foldl_cons, enter_eq s.sorted, extend, List.foldl_cons, ← extend, ← ih]
    rfl

/-! ## Sets however they are made -/

/-- The ways to make a set: from nothing, from one object, from a list, and by putting further
objects or the members of another set into it. -/
inductive Construction
  | empty
  | single (id : ObjectId)
  | collect (ids : List ObjectId)
  | insert (base : Construction) (id : ObjectId)
  | extend (base other : Construction)

namespace Construction

/-- The set that is made. -/
def set : Construction → ObjectSet
  | .empty => ObjectSet.empty
  | .single id => .single id
  | .collect ids => .ofList ids
  | .insert base id => base.set.insert id
  | .extend base other => base.set.extend other.set.ids

/-- The store that is made, by search and insertion. -/
def store : Construction → List ObjectId
  | .empty => []
  | .single id => [id]
  | .collect ids => ObjectSet.collect ids
  | .insert base id => enter base.store id
  | .extend base other => other.store.foldl enter base.store

/-- An object is put in. -/
def Puts : Construction → ObjectId → Prop
  | .empty, _ => False
  | .single id, x => x = id
  | .collect ids, x => x ∈ ids
  | .insert base id, x => base.Puts x ∨ x = id
  | .extend base other, x => base.Puts x ∨ other.Puts x

@[simp] theorem store_eq (made : Construction) : made.store = made.set.ids := by
  induction made with
  | empty => rfl
  | single id => rfl
  | collect ids => exact collect_eq ids
  | insert base id ih =>
    rw [store, ih, enter_eq base.set.sorted]
    rfl
  | extend base other ih ih' =>
    rw [store, ih, ih', foldl_enter_eq]
    rfl

@[simp] theorem contains_set (made : Construction) (id : ObjectId) :
    made.set.contains id = true ↔ made.Puts id := by
  induction made with
  | empty => simp [set, Puts, contains, ObjectSet.empty]
  | single other => simp [set, Puts, contains, ObjectSet.single]
  | collect ids => exact contains_ofList
  | insert base other ih => rw [set, contains_insert, ih, Puts, or_comm]
  | extend base other ih ih' => rw [set, contains_extend, ← contains_iff_mem, ih, ih', Puts]

end Construction

end ObjectSet

/-! ## Pairing by sets -/

/-- A requirement that is not kept yet, for the objects that are put into a set. -/
def Requirement.IsFreeFor (requirement : Requirement) (made : ObjectSet.Construction) : Prop :=
  requirement.fate = .remove ∧ ∀ id, requirement.objects.contains id = true ↔ made.Puts id

theorem Requirement.isFreeFor_iff {requirement : Requirement} {made : ObjectSet.Construction} :
    requirement.fate = .remove ∧ requirement.objects = made.set ↔ requirement.IsFreeFor made := by
  rw [IsFreeFor, ObjectSet.eq_iff_contains]
  simp only [made.contains_set]

/-- The first requirement that is free for the objects of a set is kept; nothing else changes. -/
def RuleCell.KeepsFirst (made : ObjectSet.Construction) (write : MovementTest → IntentWrite)
    (requirements kept : List Requirement) : Prop :=
  ∃ front requirement back, requirements = front ++ requirement :: back ∧
    (∀ earlier ∈ front, ¬earlier.IsFreeFor made) ∧ requirement.IsFreeFor made ∧
    kept = front ++ { requirement with fate := .keep (write requirement.test) } :: back

theorem RuleCell.claim?_eq_some_iff {made : ObjectSet.Construction}
    {write : MovementTest → IntentWrite} {requirements kept : List Requirement} :
    claim? made.set write requirements = some kept ↔ KeepsFirst made write requirements kept := by
  induction requirements generalizing kept with
  | nil => simp [claim?, KeepsFirst]
  | cons first rest ih =>
    rw [claim?]
    by_cases hfree : first.IsFreeFor made
    · rw [if_pos (Requirement.isFreeFor_iff.mpr hfree), Option.some.injEq]
      constructor
      · intro h
        exact ⟨[], first, rest, rfl, by simp, hfree, h.symm⟩
      · rintro ⟨_ | ⟨earlier, front⟩, requirement, back, hsplit, hfront, -, rfl⟩
        · cases hsplit
          rfl
        · cases hsplit
          exact absurd hfree (hfront first List.mem_cons_self)
    · rw [if_neg (mt Requirement.isFreeFor_iff.mp hfree), Option.map_eq_some_iff]
      constructor
      · rintro ⟨kept', hkept, rfl⟩
        obtain ⟨front, requirement, back, rfl, hfront, hrequirement, rfl⟩ := ih.mp hkept
        exact ⟨first :: front, requirement, back, rfl,
          List.forall_mem_cons.mpr ⟨hfree, hfront⟩, hrequirement, rfl⟩
      · rintro ⟨_ | ⟨earlier, front⟩, requirement, back, hsplit, hfront, hrequirement, rfl⟩
        · cases hsplit
          exact absurd hrequirement hfree
        · cases hsplit
          rw [List.forall_mem_cons] at hfront
          exact ⟨_, ih.mpr ⟨front, requirement, back, rfl, hfront.2, hrequirement, rfl⟩, rfl⟩

namespace ObjectSet.Construction

/-- **A set is its members in increasing order.** However a set was made, its ids are what search
and insertion make of a plain store; they increase; membership and search both find exactly what
was put in; two sets are equal exactly if the same objects were put in, so that a right term is
paired with the first requirement that is left for the same objects; and a set gives its only member
exactly if it has no other one. -/
theorem set_canonical (made : Construction) :
    made.set.ids = made.store ∧
    made.store.Pairwise (· < ·) ∧
    (∀ id, made.set.contains id = true ↔ made.Puts id) ∧
    (∀ id, (find made.store id).isFound = true ↔ made.Puts id) ∧
    (∀ other : Construction, made.set = other.set ↔ ∀ id, made.Puts id ↔ other.Puts id) ∧
    (∀ write requirements kept, RuleCell.claim? made.set write requirements = some kept ↔
      RuleCell.KeepsFirst made write requirements kept) ∧
    ∀ id, made.set.only? = some id ↔ ∀ x, made.Puts x ↔ x = id := by
  have hsorted : made.store.Pairwise (· < ·) := made.store_eq ▸ made.set.sorted
  refine ⟨made.store_eq.symm, hsorted, made.contains_set, fun id ↦ ?_, fun other ↦ ?_,
    fun write requirements kept ↦ RuleCell.claim?_eq_some_iff, fun id ↦ ?_⟩
  · rw [isFound_find hsorted, store_eq, ← contains_iff_mem, contains_set]
  · simp only [eq_iff_contains, contains_set]
  · simp only [only?_eq_some_iff, contains_set]

/-- A set collected from a list and extended, in which an object was put in twice. -/
example : (Construction.insert (.insert (.collect [⟨4⟩, ⟨1⟩, ⟨4⟩]) ⟨2⟩) ⟨1⟩).set.ids =
    [⟨1⟩, ⟨2⟩, ⟨4⟩] := by
  decide

end ObjectSet.Construction

end TilePuzzle
