import TilePuzzle.Proofs.Outcome

/-!
# Agreeing up to what errors say

Two computations that may fail agree if they give the same value, or both fail with errors between
which it makes no difference. Which differences count is left open: errors are compared after a
function has been applied to them. To agree is passed on from the parts of a computation to the
whole, also where the parts are steps for the elements of two different lists.
-/

namespace TilePuzzle

/-! ## Lists in step -/

section Lists

variable {α β γ δ : Type} {R : α → β → Prop} {S : γ → δ → Prop}

theorem forall₂_zip_zip {xs : List α} {ys : List β} {us : List γ} {vs : List δ}
    (h : List.Forall₂ R xs ys) (h' : List.Forall₂ S us vs) :
    List.Forall₂ (fun pair pair' ↦ R pair.1 pair'.1 ∧ S pair.2 pair'.2) (xs.zip us)
      (ys.zip vs) := by
  induction h generalizing us vs with
  | nil => exact .nil
  | cons hxy hrest ih =>
    cases h' with
    | nil => exact .nil
    | cons huv hrest' => exact .cons ⟨hxy, huv⟩ (ih hrest')

theorem forall₂_zipIdx {xs : List α} {ys : List β} (h : List.Forall₂ R xs ys) :
    List.Forall₂ (fun pair pair' ↦ R pair.1 pair'.1 ∧ pair.2 = pair'.2) xs.zipIdx ys.zipIdx := by
  rw [List.zipIdx_eq_zip_range', List.zipIdx_eq_zip_range', h.length_eq]
  exact forall₂_zip_zip h (List.forall₂_refl _)

theorem forall₂_toList_cases {x : Option α} {y : Option β} (h : List.Forall₂ R x.toList y.toList) :
    (x = none ∧ y = none) ∨ ∃ a b, x = some a ∧ y = some b ∧ R a b := by
  cases x with
  | none =>
    cases y with
    | none => exact .inl ⟨rfl, rfl⟩
    | some b => cases h
  | some a =>
    cases y with
    | none => cases h
    | some b =>
      cases h with
      | cons hab _ => exact .inr ⟨a, b, rfl, rfl, hab⟩

end Lists

/-! ## Agreement -/

variable {ε δ α β γ σ : Type} {f : ε → δ}

/-- Both computations give the same value, or both fail, with errors that `f` does not tell
apart. -/
def AgreeUpTo (f : ε → δ) (x y : Except ε α) : Prop := x.mapError f = y.mapError f

theorem AgreeUpTo.refl (x : Except ε α) : AgreeUpTo f x x := rfl

theorem agreeUpTo_error {e e' : ε} (h : f e = f e') :
    AgreeUpTo f (.error e : Except ε α) (.error e') := congrArg Except.error h

theorem agreeUpTo_iff {x y : Except ε α} : AgreeUpTo f x y ↔
    (∃ a, x = .ok a ∧ y = .ok a) ∨ ∃ e e', x = .error e ∧ y = .error e' ∧ f e = f e' := by
  constructor
  · intro h
    cases x with
    | ok a => exact .inl ⟨a, rfl, mapError_eq_ok_iff.mp h.symm⟩
    | error e =>
      obtain ⟨e', hy, he⟩ := mapError_eq_error_iff.mp h.symm
      exact .inr ⟨e, e', rfl, hy, he.symm⟩
  · rintro (⟨a, rfl, rfl⟩ | ⟨e, e', rfl, rfl, he⟩)
    · exact .refl _
    · exact agreeUpTo_error he

theorem AgreeUpTo.bind {x y : Except ε α} {g h : α → Except ε β} (hxy : AgreeUpTo f x y)
    (hgh : ∀ a, AgreeUpTo f (g a) (h a)) : AgreeUpTo f (x >>= g) (y >>= h) := by
  rcases agreeUpTo_iff.mp hxy with ⟨a, rfl, rfl⟩ | ⟨e, e', rfl, rfl, he⟩
  · exact hgh a
  · exact agreeUpTo_error he

theorem AgreeUpTo.mapM {g : α → Except ε β} {h : γ → Except ε β} {xs : List α} {ys : List γ}
    (hxy : List.Forall₂ (fun x y ↦ AgreeUpTo f (g x) (h y)) xs ys) :
    AgreeUpTo f (xs.mapM g) (ys.mapM h) := by
  induction hxy with
  | nil => exact .refl _
  | cons hfirst hrest ih =>
    rw [List.mapM_cons, List.mapM_cons]
    exact hfirst.bind fun b ↦ ih.bind fun bs ↦ .refl _

theorem AgreeUpTo.foldlM {g : σ → α → Except ε σ} {h : σ → γ → Except ε σ} {xs : List α}
    {ys : List γ} (hxy : List.Forall₂ (fun x y ↦ ∀ s, AgreeUpTo f (g s x) (h s y)) xs ys)
    (s : σ) : AgreeUpTo f (xs.foldlM g s) (ys.foldlM h s) := by
  induction hxy generalizing s with
  | nil => exact .refl _
  | cons hfirst hrest ih =>
    rw [List.foldlM_cons, List.foldlM_cons]
    exact (hfirst s).bind ih

end TilePuzzle
