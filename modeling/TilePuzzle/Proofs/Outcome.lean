import Mathlib.Data.List.Forall2
import Mathlib.Data.List.Induction
import TilePuzzle.Log

/-!
# Laws of computations that may fail

A document is taken apart by computations that either give a value or stop with an error, some of
them writing messages on the way.

## Success

What is proved of what they give starts from a success, so most laws here say what a success of a
compound computation says of its parts: of a sequence, of a list worked through one by one, and of a
fold that carries a state.

## Failure

Of a list or a fold that fails, the laws say with which element it does. `foldlM_cases` has both in
one: the invariant holds at the end, or it held up to the element at which the fold failed.

## Messages

A computation with messages is followed in two ways: by the value that it gives (`Gives`), whatever
it has written, and by what it writes when it cannot fail (`Writes`).
-/

namespace TilePuzzle

/-- What stands in a place of a list with one more element stands there already, or is the last
element. -/
theorem getElem?_concat_eq_some_iff {α : Type} {xs : List α} {x y : α} {i : Nat} :
    (xs ++ [x])[i]? = some y ↔ xs[i]? = some y ∨ i = xs.length ∧ y = x := by
  rcases Nat.lt_trichotomy i xs.length with hlt | rfl | hgt
  · rw [List.getElem?_append_left hlt, or_iff_left]
    rintro ⟨rfl, -⟩
    exact Nat.lt_irrefl _ hlt
  · rw [List.getElem?_concat_length, List.getElem?_eq_none (Nat.le_refl _), Option.some.injEq]
    exact ⟨fun h ↦ .inr ⟨rfl, h.symm⟩, fun h ↦ (h.resolve_left nofun).2.symm⟩
  · rw [List.getElem?_eq_none (Nat.le_of_lt hgt),
      List.getElem?_eq_none (by rwa [List.length_append, List.length_singleton])]
    exact iff_of_false nofun fun h ↦ Nat.ne_of_gt hgt (h.resolve_left nofun).1

theorem eq_of_zipIdx_eq {α : Type} {xs : List α} {front back : List (α × Nat)} {x : α} {i : Nat}
    (h : xs.zipIdx = front ++ (x, i) :: back) :
    xs = front.map Prod.fst ++ x :: back.map Prod.fst ∧ i = front.length := by
  have hplace : xs.zipIdx[front.length]? = some (x, i) := by
    simp [h]
  rw [List.getElem?_zipIdx, Option.map_eq_some_iff] at hplace
  obtain ⟨y, -, heq⟩ := hplace
  refine ⟨?_, (Nat.zero_add front.length ▸ (Prod.mk.inj heq).2).symm⟩
  rw [← List.zipIdx_map_fst 0 xs, h, List.map_append, List.map_cons]

/-! ## Without messages -/

section Except

variable {ε α β σ : Type}

theorem bind_eq_ok_iff {x : Except ε α} {f : α → Except ε β} {b : β} :
    x >>= f = .ok b ↔ ∃ a, x = .ok a ∧ f a = .ok b := by
  cases x with
  | error e =>
    constructor
    · intro h
      cases h
    · rintro ⟨a, h, -⟩
      simp at h
  | ok a =>
    constructor
    · intro h
      exact ⟨a, rfl, h⟩
    · rintro ⟨a', h, hf⟩
      cases h
      exact hf

theorem bind_eq_error_iff {x : Except ε α} {f : α → Except ε β} {e : ε} :
    x >>= f = .error e ↔ x = .error e ∨ ∃ a, x = .ok a ∧ f a = .error e := by
  cases x with
  | error e' =>
    constructor
    · intro h
      cases h
      exact .inl rfl
    · rintro (h | ⟨a, h, -⟩)
      · cases h
        rfl
      · simp at h
  | ok a =>
    constructor
    · intro h
      exact .inr ⟨a, rfl, h⟩
    · rintro (h | ⟨a', h, hf⟩)
      · simp at h
      · cases h
        exact hf

@[simp] theorem pure_eq_ok_iff {a b : α} : (pure a : Except ε α) = .ok b ↔ a = b :=
  ⟨fun h ↦ Except.ok.inj h, fun h ↦ congrArg Except.ok h⟩

theorem map_eq_ok_iff {x : Except ε α} {f : α → β} {b : β} :
    x.map f = .ok b ↔ ∃ a, x = .ok a ∧ f a = b := by
  cases x with
  | error e =>
    constructor
    · intro h
      cases h
    · rintro ⟨a, h, -⟩
      simp at h
  | ok a =>
    constructor
    · intro h
      exact ⟨a, rfl, Except.ok.inj h⟩
    · rintro ⟨a', h, rfl⟩
      cases h
      rfl

@[simp] theorem map_eq_error_iff {x : Except ε α} {f : α → β} {e : ε} :
    x.map f = .error e ↔ x = .error e := by
  cases x with
  | error e' =>
    constructor
    · intro h
      cases h
      rfl
    · intro h
      cases h
      rfl
  | ok a =>
    constructor <;> intro h <;> cases h

@[simp] theorem mapError_eq_ok_iff {δ : Type} {x : Except ε α} {f : ε → δ} {a : α} :
    x.mapError f = .ok a ↔ x = .ok a := by
  cases x with
  | error e =>
    constructor <;> intro h <;> cases h
  | ok a' =>
    constructor
    · intro h
      cases h
      rfl
    · intro h
      cases h
      rfl

theorem mapError_eq_error_iff {δ : Type} {x : Except ε α} {f : ε → δ} {d : δ} :
    x.mapError f = .error d ↔ ∃ e, x = .error e ∧ f e = d := by
  cases x with
  | error e =>
    constructor
    · intro h
      exact ⟨e, rfl, Except.error.inj h⟩
    · rintro ⟨e', h, rfl⟩
      cases h
      rfl
  | ok a =>
    constructor
    · intro h
      cases h
    · rintro ⟨e, h, -⟩
      simp at h

theorem exists_eq_ok_iff {x : Except ε α} : (∃ a, x = .ok a) ↔ ∀ e, x ≠ .error e := by
  cases x with
  | error e => exact iff_of_false nofun fun h ↦ h e rfl
  | ok a => exact iff_of_true ⟨a, rfl⟩ nofun

theorem forall₂_of_mapM_eq_ok {f : α → Except ε β} {xs : List α} {ys : List β}
    (h : xs.mapM f = .ok ys) : List.Forall₂ (fun x y ↦ f x = .ok y) xs ys := by
  induction xs generalizing ys with
  | nil =>
    obtain rfl := pure_eq_ok_iff.mp h
    exact .nil
  | cons x xs ih =>
    rw [List.mapM_cons, bind_eq_ok_iff] at h
    obtain ⟨first, hfirst, h⟩ := h
    obtain ⟨rest, hrest, h⟩ := bind_eq_ok_iff.mp h
    obtain rfl := pure_eq_ok_iff.mp h
    exact .cons hfirst (ih hrest)

/-- Working through a list gives the results in order: the one in a given place comes from the
element in that place. -/
theorem getElem?_of_mapM_eq_ok {f : α → Except ε β} {xs : List α} {ys : List β}
    (h : xs.mapM f = .ok ys) {i : Nat} {y : β} (hy : ys[i]? = some y) :
    ∃ x, xs[i]? = some x ∧ f x = .ok y := by
  have hall := forall₂_of_mapM_eq_ok h
  obtain ⟨hlt, rfl⟩ := List.getElem?_eq_some_iff.mp hy
  have hlt' : i < xs.length := hall.length_eq ▸ hlt
  exact ⟨xs[i], List.getElem?_eq_getElem hlt', hall.get hlt' hlt⟩

theorem mem_of_mapM_eq_ok {f : α → Except ε β} {xs : List α} {ys : List β}
    (h : xs.mapM f = .ok ys) {y : β} (hy : y ∈ ys) : ∃ x ∈ xs, f x = .ok y := by
  obtain ⟨i, hi⟩ := List.mem_iff_getElem?.mp hy
  obtain ⟨x, hx, hf⟩ := getElem?_of_mapM_eq_ok h hi
  exact ⟨x, List.mem_of_getElem? hx, hf⟩

theorem length_of_mapM_eq_ok {f : α → Except ε β} {xs : List α} {ys : List β}
    (h : xs.mapM f = .ok ys) : ys.length = xs.length :=
  (forall₂_of_mapM_eq_ok h).length_eq.symm

/-- If each result is read off something that belongs to its element, the results are read off a
list of such things. -/
theorem exists_forall₂_of_mapM_eq_ok {γ : Type} {f : α → Except ε β} {g : γ → β}
    {R : α → γ → Prop} (hf : ∀ x y, f x = .ok y → ∃ z, R x z ∧ y = g z) {xs : List α}
    {ys : List β} (h : xs.mapM f = .ok ys) : ∃ zs, List.Forall₂ R xs zs ∧ ys = zs.map g := by
  have hall := forall₂_of_mapM_eq_ok h
  clear h
  induction hall with
  | nil => exact ⟨[], .nil, rfl⟩
  | cons hxy hrest ih =>
    obtain ⟨z, hz, rfl⟩ := hf _ _ hxy
    obtain ⟨zs, hzs, rfl⟩ := ih
    exact ⟨z :: zs, .cons hz hzs, rfl⟩

theorem map_of_mapM_eq_ok {γ : Type} {f : α → Except ε β} {g : β → γ} {k : α → γ}
    (hf : ∀ x y, f x = .ok y → g y = k x) {xs : List α} {ys : List β} (h : xs.mapM f = .ok ys) :
    ys.map g = xs.map k := by
  have hall := forall₂_of_mapM_eq_ok h
  clear h
  induction hall with
  | nil => rfl
  | cons hxy hrest ih => rw [List.map_cons, List.map_cons, hf _ _ hxy, ih]

theorem foldlM_ok_induction {f : σ → α → Except ε σ} {P : σ → Prop} {xs : List α} {s s' : σ}
    (step : ∀ s x s', x ∈ xs → f s x = .ok s' → P s → P s') (h : xs.foldlM f s = .ok s')
    (hs : P s) : P s' := by
  induction xs generalizing s with
  | nil =>
    rw [List.foldlM_nil, pure_eq_ok_iff] at h
    exact h ▸ hs
  | cons x xs ih =>
    rw [List.foldlM_cons, bind_eq_ok_iff] at h
    obtain ⟨mid, hmid, h⟩ := h
    exact ih (fun s y s' hy ↦ step s y s' (List.mem_cons_of_mem x hy)) h
      (step s x mid List.mem_cons_self hmid hs)

/-- A fold that cannot fail is a fold without failures. The steps need to succeed only where an
invariant holds. -/
theorem foldlM_eq_ok_foldl {f : σ → α → Except ε σ} {g : σ → α → σ} {P : σ → Prop} {xs : List α}
    {s : σ} (step : ∀ s x, x ∈ xs → P s → f s x = .ok (g s x) ∧ P (g s x)) (hs : P s) :
    xs.foldlM f s = .ok (xs.foldl g s) := by
  induction xs generalizing s with
  | nil => rfl
  | cons x xs ih =>
    obtain ⟨hfirst, hrest⟩ := step s x List.mem_cons_self hs
    rw [List.foldlM_cons, hfirst, List.foldl_cons]
    exact ih (fun s y hy ↦ step s y (List.mem_cons_of_mem x hy)) hrest

theorem exists_step_of_foldlM_eq_ok {f : σ → α → Except ε σ} {xs : List α} {s s' : σ}
    (h : xs.foldlM f s = .ok s') {x : α} (hx : x ∈ xs) :
    ∃ before after, f before x = .ok after := by
  induction xs generalizing s with
  | nil => exact absurd hx List.not_mem_nil
  | cons y xs ih =>
    rw [List.foldlM_cons, bind_eq_ok_iff] at h
    obtain ⟨mid, hmid, h⟩ := h
    rcases List.mem_cons.mp hx with rfl | hx
    · exact ⟨s, mid, hmid⟩
    · exact ih h hx

/-- What is said of the elements worked through, and stays true with every step of a fold, is true
of all of them in the end. -/
theorem foldlM_ok_concat {f : σ → α → Except ε σ} {P : List α → σ → Prop} {xs : List α} {s s' : σ}
    (h : xs.foldlM f s = .ok s')
    (step : ∀ front x s s', f s x = .ok s' → P front s → P (front ++ [x]) s') (hs : P [] s) :
    P xs s' := by
  induction xs using List.reverseRecOn generalizing s' with
  | nil =>
    rw [List.foldlM_nil, pure_eq_ok_iff] at h
    exact h ▸ hs
  | append_singleton xs x ih =>
    rw [List.foldlM_append, bind_eq_ok_iff] at h
    obtain ⟨mid, hmid, h⟩ := h
    rw [List.foldlM_cons, bind_eq_ok_iff] at h
    obtain ⟨last, hlast, h⟩ := h
    rw [List.foldlM_nil, pure_eq_ok_iff] at h
    exact step xs x mid s' (h ▸ hlast) (ih hmid)

/-- A fold whose steps keep an invariant or fail keeps it to the end, or fails with one step. The
invariant is about what has been worked through. -/
theorem foldlM_cases {f : σ → α → Except ε σ} {P : List α → σ → Prop} {Q : List α → α → ε → Prop}
    (xs : List α) {s : σ}
    (step : ∀ front x back s, xs = front ++ x :: back → P front s →
      (∃ s', f s x = .ok s' ∧ P (front ++ [x]) s') ∨ ∃ e, f s x = .error e ∧ Q front x e)
    (hs : P [] s) :
    (∃ s', xs.foldlM f s = .ok s' ∧ P xs s') ∨
      ∃ front x back e, xs.foldlM f s = .error e ∧ xs = front ++ x :: back ∧ Q front x e := by
  induction xs using List.reverseRecOn with
  | nil => exact .inl ⟨s, rfl, hs⟩
  | append_singleton xs x ih =>
    have hfront : ∀ front y back s, xs = front ++ y :: back → P front s →
        (∃ s', f s y = .ok s' ∧ P (front ++ [y]) s') ∨ ∃ e, f s y = .error e ∧ Q front y e := by
      rintro front y back s rfl
      exact step front y (back ++ [x]) s (List.append_assoc ..)
    rw [List.foldlM_append]
    rcases ih hfront with ⟨mid, hmid, hP⟩ | ⟨front, y, back, e, herror, rfl, hQ⟩
    · rw [hmid]
      change (∃ s', (f mid x >>= pure) = .ok s' ∧ _) ∨ ∃ _ _ _ e, (f mid x >>= pure) = .error e ∧ _
      rcases step xs x [] mid rfl hP with ⟨s', hx, hP'⟩ | ⟨e, hx, hQ⟩
      · exact .inl ⟨s', by rw [hx]; rfl, hP'⟩
      · exact .inr ⟨xs, x, [], e, by rw [hx]; rfl, rfl, hQ⟩
    · refine .inr ⟨front, y, back ++ [x], e, ?_, List.append_assoc .., hQ⟩
      rw [herror]
      rfl

theorem foldlM_zipIdx_cases {f : σ → α × Nat → Except ε σ} {P : List α → σ → Prop}
    {Q : List α → α → ε → Prop} (xs : List α) {s : σ}
    (step : ∀ front x back s, xs = front ++ x :: back → P front s →
      (∃ s', f s (x, front.length) = .ok s' ∧ P (front ++ [x]) s') ∨
        ∃ e, f s (x, front.length) = .error e ∧ Q front x e)
    (hs : P [] s) :
    (∃ s', xs.zipIdx.foldlM f s = .ok s' ∧ P xs s') ∨
      ∃ front x back e, xs.zipIdx.foldlM f s = .error e ∧ xs = front ++ x :: back ∧
        Q front x e := by
  have hcases := foldlM_cases (f := f) (P := fun front s ↦ P (front.map Prod.fst) s)
    (Q := fun front x e ↦ Q (front.map Prod.fst) x.1 e) xs.zipIdx ?step hs
  case step =>
    rintro front ⟨x, i⟩ back s hsplit hP
    obtain ⟨hxs, rfl⟩ := eq_of_zipIdx_eq hsplit
    have hlength : (front.map Prod.fst).length = front.length := List.length_map _
    rw [← hlength, List.map_append]
    exact step _ x _ s hxs hP
  rcases hcases with ⟨s', hok, hP⟩ | ⟨front, ⟨x, i⟩, back, e, herror, hsplit, hQ⟩
  · rw [List.zipIdx_map_fst] at hP
    exact .inl ⟨s', hok, hP⟩
  · exact .inr ⟨_, x, _, e, herror, (eq_of_zipIdx_eq hsplit).1, hQ⟩

/-- A fold fails with the first step that fails. -/
theorem foldlM_eq_error_iff {f : σ → α → Except ε σ} {xs : List α} {s : σ} {e : ε} :
    xs.foldlM f s = .error e ↔ ∃ front x back mid, xs = front ++ x :: back ∧
      front.foldlM f s = .ok mid ∧ f mid x = .error e := by
  constructor
  · intro h
    have hcases := foldlM_cases (f := f) (P := fun front mid ↦ front.foldlM f s = .ok mid)
      (Q := fun front x e ↦ ∃ mid, front.foldlM f s = .ok mid ∧ f mid x = .error e) xs
      (s := s) ?step rfl
    case step =>
      intro front x back mid _ hmid
      rcases hx : f mid x with e' | next
      · exact .inr ⟨e', rfl, mid, hmid, hx⟩
      · refine .inl ⟨next, rfl, ?_⟩
        rw [List.foldlM_append, hmid]
        change (f mid x >>= pure) = _
        rw [hx]
        rfl
    rcases hcases with ⟨s', hs', -⟩ | ⟨front, x, back, e', herror, hxs, mid, hmid, hx⟩
    · rw [h] at hs'
      cases hs'
    · obtain rfl := Except.error.inj (h.symm.trans herror)
      exact ⟨front, x, back, mid, hxs, hmid, hx⟩
  · rintro ⟨front, x, back, mid, rfl, hmid, hx⟩
    rw [List.foldlM_append, hmid]
    change (f mid x >>= fun s ↦ back.foldlM f s) = _
    rw [hx]
    rfl

theorem exists_of_mapM_eq_error {f : α → Except ε β} {xs : List α} {e : ε}
    (h : xs.mapM f = .error e) : ∃ front x back, xs = front ++ x :: back ∧ f x = .error e ∧
      ∀ y ∈ front, ∃ b, f y = .ok b := by
  induction xs with
  | nil => cases h
  | cons x xs ih =>
    rw [List.mapM_cons] at h
    rcases hx : f x with e' | b
    · rw [hx] at h
      cases h
      exact ⟨[], x, xs, rfl, hx, nofun⟩
    · rw [hx] at h
      have hrest : xs.mapM f = .error e := by
        rcases hxs : xs.mapM f with e' | bs
        · change (xs.mapM f >>= fun bs ↦ pure (b :: bs)) = _ at h
          rw [hxs] at h
          exact h
        · change (xs.mapM f >>= fun bs ↦ pure (b :: bs)) = _ at h
          rw [hxs] at h
          cases h
      obtain ⟨front, y, back, rfl, hy, hfront⟩ := ih hrest
      exact ⟨x :: front, y, back, rfl, hy, List.forall_mem_cons.mpr ⟨⟨b, hx⟩, hfront⟩⟩

theorem mapM_eq_error_iff {f : α → Except ε β} {xs : List α} {e : ε} :
    xs.mapM f = .error e ↔ ∃ front x back, xs = front ++ x :: back ∧ f x = .error e ∧
      ∀ y ∈ front, ∃ b, f y = .ok b := by
  refine ⟨exists_of_mapM_eq_error, ?_⟩
  rintro ⟨front, x, back, rfl, hx, hfront⟩
  induction front with
  | nil =>
    rw [List.nil_append, List.mapM_cons, hx]
    rfl
  | cons y front ih =>
    rw [List.forall_mem_cons] at hfront
    obtain ⟨⟨b, hy⟩, hfront⟩ := hfront
    rw [List.cons_append, List.mapM_cons, hy]
    change ((front ++ x :: back).mapM f >>= _) = _
    rw [ih hfront]
    rfl

theorem mapM_eq_error_iff_getElem? {f : α → Except ε β} {xs : List α} {e : ε} :
    xs.mapM f = .error e ↔ ∃ (i : Nat) (x : α), xs[i]? = some x ∧ f x = .error e ∧
      ∀ (j : Nat) (y : α), j < i → xs[j]? = some y → ∃ b, f y = .ok b := by
  rw [mapM_eq_error_iff]
  constructor
  · rintro ⟨front, x, back, rfl, hx, hfront⟩
    refine ⟨front.length, x, ?_, hx, fun j y hj hy ↦ hfront y ?_⟩
    · rw [List.getElem?_append_right (Nat.le_refl _), Nat.sub_self]
      rfl
    · rw [List.getElem?_append_left hj] at hy
      exact List.mem_of_getElem? hy
  · rintro ⟨i, x, hi, hx, hbefore⟩
    refine ⟨xs.take i, x, xs.drop (i + 1), ?_, hx, fun y hy ↦ ?_⟩
    · obtain ⟨hlt, rfl⟩ := List.getElem?_eq_some_iff.mp hi
      rw [← List.drop_eq_getElem_cons hlt, List.take_append_drop]
    · obtain ⟨j, hj⟩ := List.mem_iff_getElem?.mp hy
      rw [List.getElem?_take] at hj
      split at hj
      · next hlt => exact hbefore j y hlt hj
      · cases hj

end Except

/-! ## With messages -/

namespace Logged

variable {ε δ α β σ : Type}

/-- A computation may give a value, whatever messages it leaves. -/
def Gives (computation : Logged ε α) (value : α) : Prop :=
  ∃ log log', computation.runOn log = (.ok value, log')

theorem Gives.bind {x : Logged ε α} {f : α → Logged ε β} {b : β} (h : (x >>= f).Gives b) :
    ∃ a, x.Gives a ∧ (f a).Gives b := by
  obtain ⟨log, log', h⟩ := h
  change ExceptT.bindCont f (x log).1 (x log).2 = _ at h
  cases hx : x log with
  | mk result mid =>
    rw [hx] at h
    cases result with
    | error e => cases h
    | ok a => exact ⟨a, ⟨log, mid, hx⟩, ⟨mid, log', h⟩⟩

theorem Gives.pure {a b : α} (h : (pure a : Logged ε α).Gives b) : a = b := by
  obtain ⟨log, log', h⟩ := h
  exact Except.ok.inj (Prod.mk.inj h).1

theorem Gives.lift {result : Except ε α} {a : α} (h : (Logged.lift result).Gives a) :
    result = .ok a := by
  obtain ⟨log, log', h⟩ := h
  exact (Prod.mk.inj h).1

theorem Gives.refuse {result : Except ε α} {a : α} (h : (Logged.refuse result).Gives a) :
    result = .ok a := mapError_eq_ok_iff.mp (Gives.lift h)

theorem Gives.mapError {f : ε → δ} {x : Logged ε α} {a : α} (h : (Logged.mapError f x).Gives a) :
    x.Gives a := by
  obtain ⟨log, log', h⟩ := h
  exact ⟨log, log', Prod.ext (mapError_eq_ok_iff.mp (Prod.mk.inj h).1) (Prod.mk.inj h).2⟩

theorem runOn_bind_of_ok {x : Logged ε α} {f : α → Logged ε β} {a : α} {log log' : Log}
    (h : x.runOn log = (.ok a, log')) : (x >>= f).runOn log = (f a).runOn log' := by
  change ExceptT.bindCont f (x.runOn log).1 (x.runOn log).2 = _
  rw [h]
  rfl

theorem runOn_bind_of_error {x : Logged ε α} {f : α → Logged ε β} {e : ε} {log log' : Log}
    (h : x.runOn log = (.error e, log')) : (x >>= f).runOn log = (.error e, log') := by
  change ExceptT.bindCont f (x.runOn log).1 (x.runOn log).2 = _
  rw [h]
  rfl

/-- Whether a computation gives a value of a certain kind. -/
def yields (computation : Logged ε α) (log : Log) (p : α → Bool) : Bool :=
  match (computation.runOn log).1 with
  | .ok value => p value
  | .error _ => false

theorem exists_of_yields {computation : Logged ε α} {log : Log} {p : α → Bool}
    (h : computation.yields log p = true) :
    ∃ value log', computation.runOn log = (.ok value, log') ∧ p value = true := by
  rw [yields] at h
  split at h
  · next value hvalue => exact ⟨value, _, Prod.ext hvalue rfl, h⟩
  · simp at h

theorem Gives.foldlM {f : σ → α → Logged ε σ} {P : σ → Prop} {xs : List α} {s s' : σ}
    (h : (xs.foldlM f s).Gives s') (step : ∀ s x s', x ∈ xs → (f s x).Gives s' → P s → P s')
    (hs : P s) : P s' := by
  induction xs generalizing s with
  | nil => exact Gives.pure h ▸ hs
  | cons x xs ih =>
    rw [List.foldlM_cons] at h
    obtain ⟨mid, hmid, h⟩ := Gives.bind h
    exact ih h (fun s y s' hy ↦ step s y s' (List.mem_cons_of_mem x hy))
      (step s x mid List.mem_cons_self hmid hs)

/-! ### What is written -/

/-- A computation succeeds and adds some notes to the log, whatever was written before. -/
def Writes (computation : Logged ε α) (value : α) (notes : List Note) : Prop :=
  ∀ log, computation.runOn log = (.ok value, ⟨log.notes ++ notes.toArray⟩)

theorem writes_pure (a : α) : (pure a : Logged ε α).Writes a [] := by
  intro log
  rw [Array.append_empty]
  rfl

theorem writes_lift {result : Except ε α} {a : α} (h : result = .ok a) :
    (lift result).Writes a [] := by
  rw [h]
  exact writes_pure a

theorem writes_info (message : String) :
    (info message : Logged ε Unit).Writes () [⟨.info, message⟩] := by
  intro log
  rw [← Array.push_eq_append]
  rfl

theorem writes_warning (message : String) :
    (warning message : Logged ε Unit).Writes () [⟨.warning, message⟩] := by
  intro log
  rw [← Array.push_eq_append]
  rfl

theorem Writes.bind {x : Logged ε α} {f : α → Logged ε β} {a : α} {b : β}
    {notes notes' : List Note} (hx : x.Writes a notes) (hf : (f a).Writes b notes') :
    (x >>= f).Writes b (notes ++ notes') := by
  intro log
  rw [runOn_bind_of_ok (hx log), hf, ← List.append_toArray notes notes', Array.append_assoc]

theorem Writes.mapM {f : α → Logged ε β} {g : α → β} {notes : α → List Note} {xs : List α}
    (h : ∀ x ∈ xs, (f x).Writes (g x) (notes x)) :
    (xs.mapM f).Writes (xs.map g) (xs.flatMap notes) := by
  induction xs with
  | nil => exact writes_pure []
  | cons x xs ih =>
    rw [List.mapM_cons, List.map_cons, List.flatMap_cons, ← List.append_nil (xs.flatMap notes)]
    apply (h x List.mem_cons_self).bind
    apply (ih fun y hy ↦ h y (List.mem_cons_of_mem x hy)).bind
    exact writes_pure (g x :: xs.map g)

theorem writes_forM {f : α → Logged ε Unit} {note : α → Note}
    (h : ∀ x, (f x).Writes () [note x]) (xs : List α) : (xs.forM f).Writes () (xs.map note) := by
  induction xs with
  | nil => exact writes_pure ()
  | cons x xs ih => exact (h x).bind ih

end Logged

end TilePuzzle
