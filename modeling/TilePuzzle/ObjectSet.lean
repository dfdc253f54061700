/-!
# Objects, layers and sets of objects

An object is known by its number, given in the order of declaration, and a collision layer by its
place from the bottom. Both are sixteen-bit words: a game has at most 65536 of either.

An `ObjectSet` is a finite set of objects kept as its strictly increasing list of members, so two
sets with the same members are the same value and can be compared as such.
-/

namespace TilePuzzle

/-- The number of an object of a game. -/
structure ObjectId where
  code : UInt16
deriving DecidableEq, Inhabited

namespace ObjectId

/-- The place of the object among the declared ones. -/
def index (id : ObjectId) : Nat := id.code.toNat

/-- The object declared in a given place. -/
def ofIndex (n : Nat) : ObjectId := ⟨.ofNat n⟩

/-- The object as written in messages. -/
def text (id : ObjectId) : String := s!"#{id.code.toNat}"

instance : LT ObjectId := ⟨fun a b ↦ a.code < b.code⟩

instance (a b : ObjectId) : Decidable (a < b) := inferInstanceAs (Decidable (a.code < b.code))

@[simp] theorem lt_iff (a b : ObjectId) : a < b ↔ a.index < b.index := UInt16.lt_iff_toNat_lt

@[simp] theorem index_inj {a b : ObjectId} : a.index = b.index ↔ a = b := by
  cases a; cases b; simp [index, UInt16.toNat_inj]

theorem lt_trans {a b c : ObjectId} (hab : a < b) (hbc : b < c) : a < c := by
  rw [lt_iff] at *; omega

theorem lt_of_not_lt_of_ne {a b : ObjectId} (h : ¬a < b) (hne : a ≠ b) : b < a := by
  rw [lt_iff] at *
  have := mt index_inj.mp hne
  omega

end ObjectId

/-- The number of a collision layer, from the bottom. -/
structure LayerId where
  code : UInt16
deriving DecidableEq, Inhabited

namespace LayerId

/-- The place of the layer in a cell. -/
def index (layer : LayerId) : Nat := layer.code.toNat

/-- The layer in a given place. -/
def ofIndex (n : Nat) : LayerId := ⟨.ofNat n⟩

end LayerId

/-! ## Sets -/

/-- A finite set of objects: its members in increasing order. -/
structure ObjectSet where
  ids : List ObjectId
  sorted : ids.Pairwise (· < ·)
deriving DecidableEq

namespace ObjectSet

/-- The set without members. -/
def empty : ObjectSet := ⟨[], .nil⟩

instance : Inhabited ObjectSet := ⟨empty⟩

/-- The set of one object. -/
def single (id : ObjectId) : ObjectSet := ⟨[id], by simp⟩

/-- Whether an object is a member. -/
def contains (s : ObjectSet) (id : ObjectId) : Bool := s.ids.contains id

/-- The number of members. -/
def size (s : ObjectSet) : Nat := s.ids.length

/-- Whether there is no member. -/
def isEmpty (s : ObjectSet) : Bool := s.ids.isEmpty

/-- The member of a set that has exactly one. -/
def only? (s : ObjectSet) : Option ObjectId :=
  match s.ids with
  | [id] => some id
  | _ => none

/-! ## Insertion -/

/-- Inserts an object into an increasing list, unless it is there. -/
def insertId (id : ObjectId) : List ObjectId → List ObjectId
  | [] => [id]
  | x :: xs => if id = x then x :: xs else if id < x then id :: x :: xs else x :: insertId id xs

@[simp] theorem mem_insertId {id x : ObjectId} {xs : List ObjectId} :
    x ∈ insertId id xs ↔ x = id ∨ x ∈ xs := by
  induction xs with
  | nil => simp [insertId]
  | cons y ys ih =>
    simp only [insertId]
    split
    · simp_all
    · split
      · simp
      · simp only [List.mem_cons, ih]
        constructor <;> rintro (h | h | h) <;> simp [h]

theorem pairwise_insertId {id : ObjectId} {xs : List ObjectId} (h : xs.Pairwise (· < ·)) :
    (insertId id xs).Pairwise (· < ·) := by
  induction xs with
  | nil => simp [insertId]
  | cons y ys ih =>
    rw [List.pairwise_cons] at h
    simp only [insertId]
    split
    · exact List.pairwise_cons.mpr h
    · next hne =>
      split
      · next hlt =>
        refine List.pairwise_cons.mpr ⟨fun z hz ↦ ?_, List.pairwise_cons.mpr h⟩
        rcases List.mem_cons.mp hz with rfl | hz
        · exact hlt
        · exact ObjectId.lt_trans hlt (h.1 z hz)
      · next hlt =>
        refine List.pairwise_cons.mpr ⟨fun z hz ↦ ?_, ih h.2⟩
        rcases mem_insertId.mp hz with rfl | hz
        · exact ObjectId.lt_of_not_lt_of_ne hlt hne
        · exact h.1 z hz

/-- The set with one more member. -/
def insert (s : ObjectSet) (id : ObjectId) : ObjectSet :=
  ⟨insertId id s.ids, pairwise_insertId s.sorted⟩

/-- The set of the objects of a list. -/
def ofList (ids : List ObjectId) : ObjectSet := ids.foldr (fun id s ↦ s.insert id) empty

/-- The set with the members of a list added, one after the other. -/
def extend (s : ObjectSet) (ids : List ObjectId) : ObjectSet := ids.foldl insert s

/-! ## Membership -/

@[simp] theorem contains_insert {s : ObjectSet} {id x : ObjectId} :
    (s.insert id).contains x = true ↔ x = id ∨ s.contains x = true := by
  simp [contains, insert, mem_insertId]

@[simp] theorem contains_ofList {ids : List ObjectId} {x : ObjectId} :
    (ofList ids).contains x = true ↔ x ∈ ids := by
  induction ids with
  | nil => simp [ofList, contains, empty]
  | cons id ids ih =>
    have : ofList (id :: ids) = (ofList ids).insert id := rfl
    rw [this, contains_insert, ih, List.mem_cons]

theorem not_mem_of_forall_lt {x : ObjectId} {xs : List ObjectId} (h : ∀ z ∈ xs, x < z) :
    x ∉ xs := fun hx ↦ by
  have := (ObjectId.lt_iff x x).mp (h x hx)
  omega

/-- An increasing list is known by its members. -/
theorem ids_eq_of_mem_iff {xs ys : List ObjectId} (hxs : xs.Pairwise (· < ·))
    (hys : ys.Pairwise (· < ·)) (h : ∀ id, id ∈ xs ↔ id ∈ ys) : xs = ys := by
  induction xs generalizing ys with
  | nil =>
    exact (List.eq_nil_iff_forall_not_mem.mpr fun id hid ↦ by simpa using (h id).mpr hid).symm
  | cons x xs ih =>
    cases ys with
    | nil => simpa using (h x).mp (by simp)
    | cons y ys =>
      rw [List.pairwise_cons] at hxs hys
      have hxy : x = y := by
        rcases List.mem_cons.mp ((h x).mp (by simp)) with hx | hx
        · exact hx
        · rcases List.mem_cons.mp ((h y).mpr (by simp)) with hy | hy
          · exact hy.symm
          · have hlt := ObjectId.lt_trans (hxs.1 y hy) (hys.1 x hx)
            have := (ObjectId.lt_iff x x).mp hlt
            omega
      subst hxy
      rw [ih hxs.2 hys.2 fun id ↦ ?_]
      by_cases hid : id = x
      · subst hid
        simp [not_mem_of_forall_lt hxs.1, not_mem_of_forall_lt hys.1]
      · simpa [hid] using h id

theorem eq_of_contains_iff {s t : ObjectSet}
    (h : ∀ id, s.contains id = true ↔ t.contains id = true) : s = t := by
  obtain ⟨xs, hxs⟩ := s
  obtain ⟨ys, hys⟩ := t
  obtain rfl : xs = ys := ids_eq_of_mem_iff hxs hys fun id ↦ by simpa [contains] using h id
  rfl

end ObjectSet

end TilePuzzle
