import Mathlib.Data.List.DropRight
import TilePuzzle.Text

/-!
# Laws of blanks and words

A text is cut at the first character of a given kind. Trimming takes blanks from both ends of a text
and nothing else. A text has words as soon as some character of it is no blank, and it is a word
itself if none is.
-/

namespace TilePuzzle.Text

variable {p : Char → Bool} {cs front back word : List Char}

/-! ## Letters and digits -/

theorem toLower_eq_self {c : Char} (h : isBlank c = true ∨ c ∈ ['[', ']', '|']) :
    c.toLower = c := by
  have hletter : ∀ n < 91, 65 ≤ n →
      ¬(isBlank (.ofNat n) = true ∨ Char.ofNat n ∈ ['[', ']', '|']) := by decide
  refine dif_neg fun hupper ↦ hletter c.toNat ?_ ?_ (by rwa [Char.ofNat_toNat])
  · exact Nat.lt_succ_of_le (UInt32.le_iff_toNat_le.mp hupper.2)
  · exact UInt32.le_iff_toNat_le.mp hupper.1

theorem isBlank_of_isDigit {c : Char} (h : c.isDigit = true) : isBlank c = false := by
  have hdigit : ∀ n < 58, 48 ≤ n → isBlank (.ofNat n) = false := by decide
  rw [Char.isDigit, Bool.and_eq_true, decide_eq_true_eq, decide_eq_true_eq] at h
  have hc := hdigit c.toNat (Nat.lt_succ_of_le (UInt32.le_iff_toNat_le.mp h.2))
    (UInt32.le_iff_toNat_le.mp h.1)
  rwa [Char.ofNat_toNat] at hc

/-! ## Cutting -/

theorem cutAt_cons_of_pos {c : Char} (h : p c = true) : cutAt p (c :: cs) = ([], some cs) := by
  simp [cutAt, h]

theorem cutAt_cons_of_neg {c : Char} (h : p c = false) :
    cutAt p (c :: cs) = (c :: (cutAt p cs).1, (cutAt p cs).2) := by
  simp only [cutAt, List.dropWhile_cons, List.takeWhile_cons, h, Bool.not_false, if_true]
  split <;> rfl

/-- A text is cut at the first character that satisfies `p`. -/
theorem cutAt_eq_some_iff : cutAt p cs = (front, some back) ↔
    ∃ c, cs = front ++ c :: back ∧ p c = true ∧ ∀ d ∈ front, p d = false := by
  constructor
  · intro h
    induction cs generalizing front with
    | nil => cases h
    | cons d cs ih =>
      cases hd : p d with
      | true =>
        rw [cutAt_cons_of_pos hd] at h
        cases h
        exact ⟨d, rfl, hd, nofun⟩
      | false =>
        rw [cutAt_cons_of_neg hd] at h
        obtain ⟨rfl, hback⟩ := Prod.mk.inj h
        obtain ⟨c, hcs, hc, hfront⟩ := ih (Prod.ext rfl hback)
        exact ⟨c, congrArg (d :: ·) hcs, hc, List.forall_mem_cons.mpr ⟨hd, hfront⟩⟩
  · rintro ⟨c, rfl, hc, hfront⟩
    induction front with
    | nil => exact cutAt_cons_of_pos hc
    | cons d front ih =>
      obtain ⟨hd, hfront⟩ := List.forall_mem_cons.mp hfront
      rw [List.cons_append, cutAt_cons_of_neg hd, ih hfront]

/-! ## Trimming -/

theorem exists_eq_append_trimChars (cs : List Char) : ∃ before behind,
    cs = before ++ trimChars cs ++ behind ∧ (∀ c ∈ before, isBlank c = true) ∧
      ∀ c ∈ behind, isBlank c = true := by
  have hreverse : ((cs.dropWhile isBlank).reverse.takeWhile isBlank ++
      (cs.dropWhile isBlank).reverse.dropWhile isBlank).reverse = cs.dropWhile isBlank := by
    rw [List.takeWhile_append_dropWhile, List.reverse_reverse]
  refine ⟨cs.takeWhile isBlank, ((cs.dropWhile isBlank).reverse.takeWhile isBlank).reverse, ?_,
    fun c hc ↦ List.all_eq_true.mp List.all_takeWhile c hc,
    fun c hc ↦ List.all_eq_true.mp List.all_takeWhile c (List.mem_reverse.mp hc)⟩
  rw [trimChars, List.append_assoc, ← List.reverse_append, hreverse,
    List.takeWhile_append_dropWhile]

theorem dropWhile_isBlank_of_solid (h : ∀ c ∈ cs, isBlank c = false) :
    cs.dropWhile isBlank = cs := by
  cases cs with
  | nil => rfl
  | cons c cs =>
    exact List.dropWhile_cons_of_neg (Bool.eq_false_iff.mp (h c List.mem_cons_self))

theorem trimChars_append {before behind : List Char} (hbefore : ∀ c ∈ before, isBlank c = true)
    (hword : ∀ c ∈ word, isBlank c = false) (hbehind : ∀ c ∈ behind, isBlank c = true) :
    trimChars (before ++ word ++ behind) = word := by
  rw [trimChars, List.append_assoc, List.dropWhile_append_of_pos hbefore]
  cases word with
  | nil =>
    rw [List.nil_append, List.dropWhile_eq_nil_iff.mpr hbehind]
    rfl
  | cons c word =>
    rw [List.cons_append,
      List.dropWhile_cons_of_neg (Bool.eq_false_iff.mp (hword c List.mem_cons_self)),
      ← List.cons_append, List.reverse_append,
      List.dropWhile_append_of_pos fun d hd ↦ hbehind d (List.mem_reverse.mp hd),
      dropWhile_isBlank_of_solid fun d hd ↦ hword d (List.mem_reverse.mp hd),
      List.reverse_reverse]

theorem trimChars_trimChars (cs : List Char) : trimChars (trimChars cs) = trimChars cs := by
  have hbegins : trimChars cs <+: cs.dropWhile isBlank := List.rdropWhile_prefix isBlank _
  have hfront : (trimChars cs).dropWhile isBlank = trimChars cs := by
    rw [List.dropWhile_eq_self_iff]
    intro hpos
    rw [hbegins.getElem hpos]
    exact List.dropWhile_get_zero_not isBlank cs (hpos.trans_le hbegins.length_le)
  rw [trimChars, hfront, trimChars, List.reverse_reverse, List.dropWhile_idempotent]

/-! ## Words -/

theorem pieces_of_solid (hne : cs ≠ []) (h : ∀ c ∈ cs, p c = false) : pieces p cs = [cs] := by
  have hfold : cs.foldr (pushChar p) ([], []) = (cs, []) := by
    clear hne
    induction cs with
    | nil => rfl
    | cons c cs ih =>
      obtain ⟨hc, hcs⟩ := List.forall_mem_cons.mp h
      rw [List.foldr_cons, ih hcs, pushChar, hc]
      rfl
  rw [pieces, hfold]
  exact if_neg (by rwa [List.isEmpty_iff])

theorem pieces_eq_nil_iff : pieces p cs = [] ↔ ∀ c ∈ cs, p c = true := by
  have hpieces : pieces p cs = [] ↔ cs.foldr (pushChar p) ([], []) = ([], []) := by
    rw [pieces]
    rcases cs.foldr (pushChar p) ([], []) with ⟨word, words⟩
    cases word <;> simp
  rw [hpieces]
  clear hpieces
  induction cs with
  | nil => exact iff_of_true rfl nofun
  | cons c cs ih =>
    rw [List.forall_mem_cons, List.foldr_cons, pushChar]
    refine Iff.trans ?_ (and_congr_right' ih)
    rcases cs.foldr (pushChar p) ([], []) with ⟨word, words⟩
    cases p c <;> cases word <;> simp

theorem pieces_cons_of_pos {c : Char} (h : p c = true) : pieces p (c :: cs) = pieces p cs := by
  simp [pieces, pushChar, h]

/-- A text that begins with no gap has the characters up to the next gap for its first piece. -/
theorem head?_pieces_cons_of_neg {c : Char} (h : p c = false) :
    (pieces p (c :: cs)).head? = some (c :: cs.takeWhile fun d ↦ !p d) := by
  have hword : (cs.foldr (pushChar p) ([], [])).1 = cs.takeWhile fun d ↦ !p d := by
    induction cs with
    | nil => rfl
    | cons d cs ih =>
      rw [List.foldr_cons, pushChar, List.takeWhile_cons]
      cases p d with
      | true => rfl
      | false => exact congrArg (d :: ·) ih
  rw [pieces, List.foldr_cons, pushChar, if_neg (Bool.eq_false_iff.mp h), ← hword]
  rfl

/-- The first piece is what stands between the gaps in front and the next gap. -/
theorem head?_pieces_eq_some_iff : (pieces p cs).head? = some word ↔
    ∃ front back, cs = front ++ word ++ back ∧ word ≠ [] ∧ (∀ c ∈ front, p c = true) ∧
      (∀ c ∈ word, p c = false) ∧ back.head?.all p = true := by
  constructor
  · intro h
    induction cs with
    | nil => cases h
    | cons c cs ih =>
      cases hc : p c with
      | true =>
        rw [pieces_cons_of_pos hc] at h
        obtain ⟨front, back, rfl, hne, hfront, hword, hback⟩ := ih h
        exact ⟨c :: front, back, rfl, hne, List.forall_mem_cons.mpr ⟨hc, hfront⟩, hword, hback⟩
      | false =>
        rw [head?_pieces_cons_of_neg hc] at h
        obtain rfl := Option.some.inj h
        refine ⟨[], cs.dropWhile fun d ↦ !p d, ?_, List.cons_ne_nil _ _, nofun, ?_, ?_⟩
        · simp
        · refine List.forall_mem_cons.mpr ⟨hc, fun d hd ↦ ?_⟩
          rw [← Bool.not_eq_true']
          exact List.all_eq_true.mp List.all_takeWhile d hd
        · have hhead := List.head?_dropWhile_not (fun d ↦ !p d) cs
          cases hback : (cs.dropWhile fun d ↦ !p d).head? with
          | none => rfl
          | some d =>
            rw [hback] at hhead
            simpa using hhead
  · rintro ⟨front, back, rfl, hne, hfront, hword, hback⟩
    induction front with
    | cons c front ih =>
      obtain ⟨hc, hfront⟩ := List.forall_mem_cons.mp hfront
      rw [List.cons_append, List.cons_append, pieces_cons_of_pos hc, ih hfront]
    | nil =>
      obtain ⟨c, rest, rfl⟩ := List.exists_cons_of_ne_nil hne
      obtain ⟨hc, hrest⟩ := List.forall_mem_cons.mp hword
      rw [List.nil_append, List.cons_append, head?_pieces_cons_of_neg hc,
        List.takeWhile_append_of_pos fun d hd ↦ by rw [hrest d hd]; rfl]
      cases back with
      | nil => rw [List.takeWhile_nil, List.append_nil]
      | cons d back =>
        rw [List.takeWhile_cons_of_neg (by rw [show p d = true from hback]; decide),
          List.append_nil]

end TilePuzzle.Text
