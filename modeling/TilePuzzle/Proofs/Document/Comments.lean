import Mathlib.Data.List.Induction
import Mathlib.Data.Nat.Find
import TilePuzzle.Document.Line

/-!
# Comments are invisible, and lines keep their numbers

A comment begins with an opening parenthesis and ends where, for the first time, all that were
opened since are closed again. A comment that is never closed goes on to the end of the text. So
every place of a text lies in a comment or outside of all, and reading character by character how
deep the comments are nested tells which (`covers_iff`).

The lines of a text are what lies outside of comments on each of its lines, numbered as they stand.
Within a comment only line breaks count, so a comment on a single line may be put anywhere.

## The invariant

The scanner keeps the lines that it has finished, the characters of the present line, the depth and
the line on which the latest comment was opened. `Scan.Reads` says what each of them is in terms of
the characters that have been read, and every character keeps it (`Scan.reads_foldl`). Nothing else
is used of the scanner to tell the lines of a text.

## Passing a comment

That a comment is passed is shown of two scanners: one that reads it and one that does not. They
differ at most in where the latest comment was opened, which is never asked for while none is open
(`Scan.Agrees`).
-/

namespace TilePuzzle

/-! ## Elements and their places -/

/-- What one more element adds to a choice by places, if the choice stays the same before it. -/
theorem map_fst_filter_zipIdx_concat {α : Type} {p q : α × Nat → Bool} {xs : List α} {x : α}
    {added : Prop} [Decidable added] (h : ∀ pair, pair.2 < xs.length → q pair = p pair)
    (hlast : q (x, xs.length) = true ↔ added) :
    ((xs ++ [x]).zipIdx.filter q).map Prod.fst =
      (xs.zipIdx.filter p).map Prod.fst ++ if added then [x] else [] := by
  rw [List.zipIdx_append, List.filter_append, List.map_append,
    List.filter_congr fun pair hpair ↦ h pair (List.snd_lt_of_mem_zipIdx hpair),
    List.zipIdx_singleton, Nat.zero_add, List.filter_cons, List.filter_nil]
  simp only [hlast]
  rw [apply_ite (List.map Prod.fst)]
  rfl

namespace Comment

/-! ## Nesting -/

/-- How deep comments are nested behind a character. Where none is open, a closing parenthesis
closes nothing. -/
def nest (depth : Nat) (c : Char) : Nat :=
  if c = '(' then depth + 1 else if c = ')' then depth - 1 else depth

/-- How deep comments are nested behind some characters. -/
def nesting (depth : Nat) (cs : List Char) : Nat := cs.foldl nest depth

theorem nesting_append (depth : Nat) (cs ds : List Char) :
    nesting depth (cs ++ ds) = nesting (nesting depth cs) ds := List.foldl_append

theorem nesting_concat (depth : Nat) (cs : List Char) (c : Char) :
    nesting depth (cs ++ [c]) = nest (nesting depth cs) c := nesting_append depth cs [c]

theorem nest_zero_of_ne {c : Char} (h : c ≠ '(') : nest 0 c = 0 := by
  rw [nest, if_neg h]
  exact ite_self 0

theorem nest_mono {d d' : Nat} (h : d ≤ d') (c : Char) : nest d c ≤ nest d' c := by
  simp only [nest]
  split
  · exact Nat.succ_le_succ h
  · split
    · exact Nat.sub_le_sub_right h 1
    · exact h

theorem nesting_mono {d d' : Nat} (h : d ≤ d') (cs : List Char) : nesting d cs ≤ nesting d' cs := by
  induction cs generalizing d d' with
  | nil => exact h
  | cons c cs ih => exact ih (nest_mono h c)

/-- As long as no more is closed than was opened, it does not matter what was open before. -/
theorem nesting_add (base : Nat) {depth : Nat} {cs : List Char}
    (h : ∀ n < cs.length, nesting depth (cs.take n) ≠ 0) :
    nesting (base + depth) cs = base + nesting depth cs := by
  induction cs generalizing depth with
  | nil => rfl
  | cons c cs ih =>
    have hdepth : depth ≠ 0 := h 0 (Nat.succ_pos _)
    have hnest : nest (base + depth) c = base + nest depth c := by
      simp only [nest]
      split
      · exact Nat.add_assoc ..
      · split
        · exact Nat.add_sub_assoc (Nat.pos_of_ne_zero hdepth) base
        · rfl
    change nesting (nest (base + depth) c) cs = base + nesting (nest depth c) cs
    rw [hnest]
    exact ih fun n hn ↦ h (n + 1) (Nat.succ_lt_succ hn)

/-! ## Comments -/

/-- The characters are a comment: they begin with an opening parenthesis, and not before the last of
them all that were opened are closed. -/
structure IsComment (cs : List Char) : Prop where
  opens : cs.head? = some '('
  closes : nesting 0 cs = 0
  stays_open : ∀ n < cs.length, 0 < n → nesting 0 (cs.take n) ≠ 0

/-- The characters begin with an opening parenthesis that is never closed. -/
structure IsUnclosed (cs : List Char) : Prop where
  opens : cs.head? = some '('
  stays_open : ∀ n ≤ cs.length, 0 < n → nesting 0 (cs.take n) ≠ 0

/-- A place of a text lies in a comment. One that is never closed goes on to the end. -/
def Covers (text : List Char) (place : Nat) : Prop :=
  ∃ front comment back, text = front ++ (comment ++ back) ∧
    (IsComment comment ∨ IsUnclosed comment ∧ back = []) ∧
    front.length ≤ place ∧ place < front.length + comment.length

variable {text cs : List Char} {start place : Nat}

/-- Between a place at which no comment is open and the given one, there is a last. -/
theorem exists_clear (text : List Char) (place : Nat) :
    ∃ start ≤ place, nesting 0 (text.take start) = 0 ∧
      ∀ n, start < n → n ≤ place → nesting 0 (text.take n) ≠ 0 := by
  induction place with
  | zero => exact ⟨0, Nat.le_refl 0, rfl, fun n hn hle ↦ absurd hn (Nat.not_lt.mpr hle)⟩
  | succ place ih =>
    by_cases hclear : nesting 0 (text.take (place + 1)) = 0
    · exact ⟨place + 1, Nat.le_refl _, hclear, fun n hn hle ↦ absurd hn (Nat.not_lt.mpr hle)⟩
    · obtain ⟨start, hstart, hzero, hopen⟩ := ih
      refine ⟨start, Nat.le_succ_of_le hstart, hzero, fun n hn hle ↦ ?_⟩
      rcases Nat.le_or_eq_of_le_succ hle with hle | rfl
      · exact hopen n hn hle
      · exact hclear

theorem head?_drop_of_opens (hclear : nesting 0 (text.take start) = 0)
    (hopen : nesting 0 (text.take (start + 1)) ≠ 0) : (text.drop start).head? = some '(' := by
  rw [List.head?_drop]
  rw [List.take_add_one, nesting_append, hclear] at hopen
  rcases htext : text[start]? with _ | c
  · rw [htext] at hopen
    exact absurd rfl hopen
  · rw [htext] at hopen
    by_contra hc
    have hne : c ≠ '(' := fun h ↦ hc (congrArg some h)
    exact hopen (nest_zero_of_ne hne)

/-- Behind a place at which no comment is open, the nesting begins afresh. -/
theorem nesting_take_drop (hclear : nesting 0 (text.take start) = 0) (n : Nat) :
    nesting 0 ((text.drop start).take n) = nesting 0 (text.take (start + n)) := by
  rw [List.take_add, nesting_append, hclear]

/-- What begins with an opening parenthesis begins with a comment, unless it is never closed. -/
theorem isComment_or_isUnclosed (h : cs.head? = some '(') :
    (∃ n, 0 < n ∧ n ≤ cs.length ∧ IsComment (cs.take n)) ∨ IsUnclosed cs := by
  by_cases hclosed : ∃ n, 0 < n ∧ n ≤ cs.length ∧ nesting 0 (cs.take n) = 0
  · -- the least such number of characters makes up the comment
    obtain ⟨hpos, hle, hzero⟩ := Nat.find_spec hclosed
    have hmin := fun {m} ↦ Nat.find_min (m := m) hclosed
    generalize Nat.find hclosed = n at hpos hle hzero hmin
    refine .inl ⟨n, hpos, hle, ?_, hzero, fun m hlt hm ↦ ?_⟩
    · rw [List.head?_take, if_neg (Nat.ne_of_gt hpos)]
      exact h
    · rw [List.length_take, Nat.min_eq_left hle] at hlt
      rw [List.take_take, Nat.min_eq_left (Nat.le_of_lt hlt)]
      exact fun hm0 ↦ hmin hlt ⟨hm, Nat.le_trans (Nat.le_of_lt hlt) hle, hm0⟩
  · exact .inr ⟨h, fun n hle hpos hzero ↦ hclosed ⟨n, hpos, hle, hzero⟩⟩

/-- **The nesting tells what lies in a comment**: a place behind which comments are nested, and a
place at which one opens. -/
theorem covers_iff : Covers text place ↔ place < text.length ∧
    (nesting 0 (text.take place) ≠ 0 ∨ text[place]? = some '(') := by
  constructor
  · rintro ⟨front, comment, back, rfl, hcomment, hle, hlt⟩
    have hopens : comment.head? = some '(' :=
      hcomment.elim IsComment.opens fun h ↦ h.1.opens
    have hstays : ∀ n < comment.length, 0 < n → nesting 0 (comment.take n) ≠ 0 :=
      hcomment.elim IsComment.stays_open fun h n hn ↦ h.1.stays_open n (Nat.le_of_lt hn)
    obtain ⟨n, rfl⟩ := Nat.exists_eq_add_of_le hle
    have hn : n < comment.length := Nat.lt_of_add_lt_add_left hlt
    refine ⟨?_, ?_⟩
    · rw [List.length_append, List.length_append]
      exact Nat.add_lt_add_left (Nat.lt_add_right _ hn) _
    · rcases Nat.eq_zero_or_pos n with rfl | hpos
      · refine .inr ?_
        rw [Nat.add_zero, List.getElem?_append_right (Nat.le_refl _), Nat.sub_self,
          ← List.head?_eq_getElem?, List.head?_append, hopens]
        rfl
      · refine .inl (Nat.ne_of_gt ?_)
        rw [List.take_length_add_append, List.take_append_of_le_length (Nat.le_of_lt hn),
          nesting_append]
        exact Nat.lt_of_lt_of_le (Nat.pos_of_ne_zero (hstays n hn hpos))
          (nesting_mono (Nat.zero_le _) _)
  · rintro ⟨hlength, hplace⟩
    obtain ⟨start, hstart, hclear, hopen⟩ := exists_clear text place
    have hopens : (text.drop start).head? = some '(' := by
      rcases Nat.lt_or_eq_of_le hstart with hlt | rfl
      · exact head?_drop_of_opens hclear (hopen _ (Nat.lt_succ_self _) hlt)
      · rw [List.head?_drop]
        exact hplace.resolve_left (not_not_intro hclear)
    have hfront : (text.take start).length = start := by
      rw [List.length_take, Nat.min_eq_left (Nat.le_trans hstart (Nat.le_of_lt hlength))]
    rcases isComment_or_isUnclosed hopens with ⟨n, hpos, hle, hcomment⟩ | hunclosed
    · refine ⟨text.take start, (text.drop start).take n, (text.drop start).drop n, ?_,
        .inl hcomment, ?_, ?_⟩
      · rw [List.take_append_drop, List.take_append_drop]
      · rw [hfront]
        exact hstart
      · rw [hfront, List.length_take, Nat.min_eq_left hle]
        by_contra hlt
        refine hopen (start + n) (Nat.lt_add_of_pos_right hpos) (Nat.le_of_not_lt hlt) ?_
        rw [← nesting_take_drop hclear]
        exact hcomment.closes
    · refine ⟨text.take start, text.drop start, [], ?_, .inr ⟨hunclosed, rfl⟩, ?_, ?_⟩
      · rw [List.append_nil, List.take_append_drop]
      · rw [hfront]
        exact hstart
      · rw [hfront, List.length_drop]
        omega

instance (text : List Char) (place : Nat) : Decidable (Covers text place) :=
  decidable_of_iff _ covers_iff.symm

/-! ## Comments that are never closed -/

/-- A comment that is never closed begins behind some characters, and none before it. -/
structure IsOutermost (front back : List Char) : Prop where
  unclosed : IsUnclosed back
  first : ∀ front' back', front' ++ back' = front ++ back → IsUnclosed back' →
    front.length ≤ front'.length

theorem IsUnclosed.nesting_ne_zero (h : IsUnclosed cs) (depth : Nat) : nesting depth cs ≠ 0 := by
  have hne : cs ≠ [] := fun hnil ↦ by simpa [hnil] using h.opens
  have hopen := h.stays_open cs.length (Nat.le_refl _) (List.length_pos_iff.mpr hne)
  rw [List.take_length] at hopen
  exact Nat.ne_of_gt (Nat.lt_of_lt_of_le (Nat.pos_of_ne_zero hopen)
    (nesting_mono (Nat.zero_le depth) cs))

theorem isUnclosed_drop (hclear : nesting 0 (text.take start) = 0)
    (hopen : ∀ n, start < n → n ≤ text.length → nesting 0 (text.take n) ≠ 0)
    (hlt : start < text.length) : IsUnclosed (text.drop start) where
  opens := head?_drop_of_opens hclear (hopen _ (Nat.lt_succ_self start) hlt)
  stays_open n hle hpos := by
    rw [nesting_take_drop hclear]
    rw [List.length_drop] at hle
    exact hopen _ (Nat.lt_add_of_pos_right hpos) (by omega)

theorem IsUnclosed.append {ds : List Char} (hcs : IsUnclosed cs) (hds : IsUnclosed ds) :
    IsUnclosed (cs ++ ds) where
  opens := by
    rw [List.head?_append, hcs.opens]
    rfl
  stays_open n hle hpos := by
    rcases Nat.le_total n cs.length with hn | hn
    · rw [List.take_append_of_le_length hn]
      exact hcs.stays_open n hn hpos
    · obtain ⟨m, rfl⟩ := Nat.exists_eq_add_of_le hn
      rw [List.take_length_add_append, nesting_append]
      rcases Nat.eq_zero_or_pos m with rfl | hm
      · exact hcs.nesting_ne_zero 0
      · rw [List.length_append] at hle
        have hopen := hds.stays_open m (Nat.le_of_add_le_add_left hle) hm
        exact Nat.ne_of_gt (Nat.lt_of_lt_of_le (Nat.pos_of_ne_zero hopen)
          (nesting_mono (Nat.zero_le _) _))

theorem isOutermost_iff {front back : List Char} :
    IsOutermost front back ↔ IsUnclosed back ∧ nesting 0 front = 0 := by
  constructor
  · intro h
    refine ⟨h.unclosed, ?_⟩
    -- otherwise the comment that is open behind `front` began earlier and is not closed either
    by_contra hfront
    obtain ⟨start, hstart, hclear, hopen⟩ := exists_clear front front.length
    have hlt : start < front.length := by
      refine Nat.lt_of_le_of_ne hstart fun heq ↦ hfront ?_
      rwa [heq, List.take_length] at hclear
    have hearlier := h.first (front.take start) (front.drop start ++ back)
      (by rw [← List.append_assoc, List.take_append_drop])
      ((isUnclosed_drop hclear hopen hlt).append h.unclosed)
    rw [List.length_take, Nat.min_eq_left hstart] at hearlier
    exact Nat.not_lt.mpr hearlier hlt
  · rintro ⟨hback, hfront⟩
    refine ⟨hback, fun front' back' heq hback' ↦ Nat.le_of_not_lt fun hlt ↦ ?_⟩
    obtain ⟨mid, rfl⟩ : front' <+: front :=
      List.prefix_of_prefix_length_le (heq ▸ List.prefix_append front' back')
        (List.prefix_append front back) (Nat.le_of_lt hlt)
    obtain rfl : back' = mid ++ back := by
      rw [List.append_assoc] at heq
      exact List.append_cancel_left heq
    have hmid : 0 < mid.length := by
      rw [List.length_append] at hlt
      omega
    have hopen := hback'.stays_open mid.length
      (by rw [List.length_append]; exact Nat.le_add_right _ _) hmid
    rw [List.take_left] at hopen
    rw [nesting_append] at hfront
    have hle := nesting_mono (Nat.zero_le (nesting 0 front')) mid
    rw [hfront] at hle
    exact hopen (Nat.le_zero.mp hle)

theorem IsUnclosed.of_concat {c : Char} (h : IsUnclosed (cs ++ [c])) (hne : cs ≠ []) :
    IsUnclosed cs where
  opens := by
    rw [← h.opens, List.head?_append, Option.or_of_isSome (List.isSome_head?.mpr hne)]
  stays_open n hle hpos := by
    rw [← List.take_append_of_le_length hle]
    exact h.stays_open n (Nat.le_trans hle (by simp)) hpos

/-- Comments are nested behind a text just if one of them is never closed. -/
theorem nesting_ne_zero_iff :
    nesting 0 text ≠ 0 ↔ ∃ front back, text = front ++ back ∧ IsOutermost front back := by
  constructor
  · intro htext
    obtain ⟨start, hstart, hclear, hopen⟩ := exists_clear text text.length
    have hlt : start < text.length := by
      refine Nat.lt_of_le_of_ne hstart fun heq ↦ htext ?_
      rwa [heq, List.take_length] at hclear
    exact ⟨text.take start, text.drop start, (List.take_append_drop start text).symm,
      isOutermost_iff.mpr ⟨isUnclosed_drop hclear hopen hlt, hclear⟩⟩
  · rintro ⟨front, back, rfl, h⟩
    rw [nesting_append]
    exact h.unclosed.nesting_ne_zero _

end Comment

/-! ## What lies outside of comments -/

namespace Line

open Comment

/-- The characters on a line of a text that lie outside of comments. The lines are counted from
zero, and a character is on the line of as many line breaks as stand before it. -/
def outside (text : List Char) (line : Nat) : List Char :=
  (text.zipIdx.filter fun (c, place) ↦
    c ≠ '\n' ∧ (text.take place).count '\n' = line ∧ ¬Covers text place).map Prod.fst

/-- The number of lines. What follows the last line break counts if some character of it lies
outside of comments. -/
def lineCount (text : List Char) : Nat :=
  if outside text (text.count '\n') = [] then text.count '\n' else text.count '\n' + 1

example : outside ['a', '(', '\n', 'b', ')', ')', 'c'] 1 = [')', 'c'] := by decide

theorem outside_concat (text : List Char) (c : Char) (line : Nat) :
    outside (text ++ [c]) line = outside text line ++
      if c ≠ '\n' ∧ text.count '\n' = line ∧ nesting 0 text = 0 ∧ c ≠ '(' then [c] else [] := by
  have hlast : Covers (text ++ [c]) text.length ↔ ¬(nesting 0 text = 0 ∧ c ≠ '(') := by
    rw [covers_iff, List.take_left, List.getElem?_concat_length, List.length_append]
    simp only [List.length_singleton, Nat.lt_add_one, true_and, Option.some.injEq]
    rw [not_and_or, not_not]
  have hrest : ∀ place < text.length, Covers (text ++ [c]) place ↔ Covers text place := by
    intro place hplace
    rw [covers_iff, covers_iff, List.take_append_of_le_length (Nat.le_of_lt hplace),
      List.getElem?_append_left hplace, List.length_append]
    simp only [hplace, Nat.lt_add_right, true_and]
  refine map_fst_filter_zipIdx_concat ?_ ?_
  · rintro ⟨d, place⟩ hplace
    simp only [hrest place hplace, List.take_append_of_le_length (Nat.le_of_lt hplace)]
  · simp only [List.take_left, hlast, not_not, decide_eq_true_eq]

theorem count_concat (text : List Char) (c : Char) :
    (text ++ [c]).count '\n' = text.count '\n' + if c = '\n' then 1 else 0 := by
  rw [List.count_append, List.count_singleton]
  simp only [beq_iff_eq]

theorem outside_concat_of_ne {text : List Char} {line : Nat} (h : text.count '\n' ≠ line)
    (c : Char) : outside (text ++ [c]) line = outside text line := by
  rw [outside_concat, if_neg fun hc ↦ h hc.2.1, List.append_nil]

theorem outside_of_lt {text : List Char} {line : Nat} (h : text.count '\n' < line) :
    outside text line = [] := by
  rw [outside, List.map_eq_nil_iff, List.filter_eq_nil_iff]
  rintro ⟨c, place⟩ -
  rw [decide_eq_true_eq]
  rintro ⟨-, hline, -⟩
  have hle : (text.take place).count '\n' ≤ text.count '\n' :=
    (List.take_sublist place text).count_le '\n'
  exact Nat.not_lt.mpr (hline ▸ hle) h

/-! ## The scanner -/

/-- A line of a text as it is read. -/
def ofText (text : List Char) (line : Nat) : Line :=
  ⟨line + 1, .ofList (Text.trimChars (outside text line))⟩

/-- What the scanner knows behind some characters. -/
structure Scan.Reads (scan : Scan) (text : List Char) : Prop where
  lines : scan.lines.reverse = (List.range (text.count '\n')).map (ofText text)
  number : scan.number = text.count '\n' + 1
  current : scan.current.reverse = outside text (text.count '\n')
  depth : scan.depth = nesting 0 text
  opened : ∀ front back, text = front ++ back → IsOutermost front back →
    scan.opened = front.count '\n' + 1

theorem Scan.reads_start : Scan.start.Reads [] where
  lines := rfl
  number := rfl
  current := rfl
  depth := rfl
  opened front back heq h := by
    obtain ⟨rfl, rfl⟩ := List.append_eq_nil_iff.mp heq.symm
    exact absurd rfl (h.unclosed.nesting_ne_zero 0)

/-- **What a step does.** A line break ends the line, a character outside of comments is added to
it, and any other only changes the depth and may begin a comment. -/
theorem Scan.step_cases (scan : Scan) (c : Char) :
    (c = '\n' ∧ scan.step c = scan.endLine) ∨
    (c ≠ '\n' ∧ (scan.depth = 0 ∧ c ≠ '(') ∧
      scan.step c = { scan with current := c :: scan.current }) ∨
    (c ≠ '\n' ∧ ¬(scan.depth = 0 ∧ c ≠ '(') ∧
      scan.step c = { scan with
        depth := nest scan.depth c
        opened := if scan.depth = 0 then scan.number else scan.opened }) := by
  by_cases hline : c = '\n'
  · subst hline
    exact .inl ⟨rfl, rfl⟩
  · refine .inr ?_
    by_cases hopen : c = '('
    · subst hopen
      exact .inr ⟨hline, fun h ↦ h.2 rfl, rfl⟩
    · rcases Nat.eq_zero_or_pos scan.depth with hdepth | hdepth
      · refine .inl ⟨hline, ⟨hdepth, hopen⟩, ?_⟩
        rw [Scan.step, if_neg hline, if_neg hopen, if_neg (by omega)]
      · refine .inr ⟨hline, fun h ↦ Nat.ne_of_gt hdepth h.1, ?_⟩
        rw [Scan.step, if_neg hline, if_neg hopen, if_pos hdepth, nest, if_neg hopen,
          if_neg (Nat.ne_of_gt hdepth)]
        split <;> rfl

/-- A comment that is never closed and goes on to the last character began with it or before. -/
theorem exists_of_isOutermost_concat {text front back : List Char} {c : Char}
    (heq : text ++ [c] = front ++ back) (h : IsOutermost front back) :
    (front = text ∧ nesting 0 text = 0 ∧ c = '(') ∨
      (nesting 0 text ≠ 0 ∧ ∃ back', text = front ++ back' ∧ IsOutermost front back') := by
  obtain ⟨hback, hfront⟩ := isOutermost_iff.mp h
  rcases List.eq_nil_or_concat back with rfl | ⟨mid, d, rfl⟩
  · exact absurd rfl (hback.nesting_ne_zero 0)
  · rw [List.concat_eq_append] at heq hback
    rw [← List.append_assoc] at heq
    obtain ⟨rfl, hlast⟩ := List.append_inj' heq rfl
    obtain rfl := List.singleton_inj.mp hlast
    by_cases hmid : mid = []
    · subst hmid
      refine .inl ⟨(List.append_nil front).symm, ?_, Option.some.inj hback.opens⟩
      rwa [List.append_nil]
    · have hmid := hback.of_concat hmid
      refine .inr ⟨?_, mid, rfl, isOutermost_iff.mpr ⟨hmid, hfront⟩⟩
      rw [nesting_append]
      exact hmid.nesting_ne_zero _

theorem map_ofText_concat (text : List Char) (c : Char) :
    (List.range (text.count '\n')).map (ofText (text ++ [c])) =
      (List.range (text.count '\n')).map (ofText text) := by
  refine List.map_congr_left fun line hline ↦ ?_
  have hne : text.count '\n' ≠ line := Nat.ne_of_gt (List.mem_range.mp hline)
  rw [ofText, ofText, outside_concat_of_ne hne]

/-- Where an open comment began is written down just when the first one opens. -/
theorem Scan.Reads.opened_step {scan : Scan} {text : List Char} (h : scan.Reads text) (c : Char)
    (front back : List Char) (heq : text ++ [c] = front ++ back)
    (hback : IsOutermost front back) : (scan.step c).opened = front.count '\n' + 1 := by
  rcases exists_of_isOutermost_concat heq hback with
    ⟨rfl, hclear, rfl⟩ | ⟨hopen, back', rfl, hback'⟩
  · rw [← h.number]
    exact if_pos (h.depth.trans hclear)
  · have hdepth : scan.depth ≠ 0 := fun hzero ↦ hopen (h.depth.symm.trans hzero)
    rw [← h.opened front back' rfl hback']
    rcases scan.step_cases c with ⟨-, hstep⟩ | ⟨-, -, hstep⟩ | ⟨-, -, hstep⟩
    · rw [hstep]
      rfl
    · rw [hstep]
    · rw [hstep]
      exact if_neg hdepth

theorem Scan.Reads.ofText_last {scan : Scan} {text : List Char} (h : scan.Reads text) :
    ofText text (text.count '\n') =
      ⟨scan.number, .ofList (Text.trimChars scan.current.reverse)⟩ := by
  rw [ofText, h.current, h.number]

theorem Scan.Reads.endLine {scan : Scan} {text : List Char} (h : scan.Reads text) :
    scan.endLine.Reads (text ++ ['\n']) where
  lines := by
    have hlast : ofText (text ++ ['\n']) (text.count '\n') = ofText text (text.count '\n') := by
      simp [ofText, outside_concat]
    rw [Scan.endLine, List.reverse_cons, h.lines, count_concat, if_pos rfl, List.range_succ,
      List.map_append, map_ofText_concat, List.map_singleton, hlast, h.ofText_last]
  number := by
    rw [count_concat, if_pos rfl, ← h.number]
    rfl
  current := by
    rw [count_concat, if_pos rfl, outside_concat_of_ne (Nat.ne_of_lt (Nat.lt_succ_self _)),
      outside_of_lt (Nat.lt_succ_self _)]
    rfl
  depth := by
    rw [nesting_concat, ← h.depth]
    rfl
  opened := h.opened_step '\n'

theorem Scan.Reads.step {scan : Scan} {text : List Char} (h : scan.Reads text) (c : Char) :
    (scan.step c).Reads (text ++ [c]) := by
  by_cases hline : c = '\n'
  · subst hline
    exact h.endLine
  · have hcount : (text ++ [c]).count '\n' = text.count '\n' := by
      rw [count_concat, if_neg hline, Nat.add_zero]
    rcases scan.step_cases c with ⟨rfl, -⟩ | ⟨-, hout, hstep⟩ | ⟨-, hin, hstep⟩
    · exact absurd rfl hline
    · refine ⟨?_, ?_, ?_, ?_, h.opened_step c⟩
      · rw [hstep, hcount, map_ofText_concat]
        exact h.lines
      · rw [hstep, hcount]
        exact h.number
      · rw [hstep, hcount, outside_concat, if_pos ⟨hline, rfl, h.depth ▸ hout.1, hout.2⟩,
          ← h.current]
        exact List.reverse_cons
      · rw [hstep, nesting_concat, ← h.depth, hout.1, nest_zero_of_ne hout.2]
    · refine ⟨?_, ?_, ?_, ?_, h.opened_step c⟩
      · rw [hstep, hcount, map_ofText_concat]
        exact h.lines
      · rw [hstep, hcount]
        exact h.number
      · rw [hcount, outside_concat,
          if_neg fun hc ↦ hin ⟨h.depth.trans hc.2.2.1, hc.2.2.2⟩, List.append_nil, hstep]
        exact h.current
      · rw [hstep, nesting_concat, ← h.depth]

/-- **The scanner keeps to what it has read.** -/
theorem Scan.reads_foldl (text : List Char) : (text.foldl Scan.step .start).Reads text := by
  induction text using List.reverseRecOn with
  | nil => exact Scan.reads_start
  | append_singleton text c ih =>
    rw [List.foldl_append]
    exact ih.step c

/-! ## The lines of a text -/

/-- The lines of a text, as they lie outside of comments. -/
def allOfText (text : List Char) : List Line := (List.range (lineCount text)).map (ofText text)

theorem length_allOfText (text : List Char) : (allOfText text).length = lineCount text := by
  simp [allOfText]

theorem getElem_allOfText {text : List Char} {i : Nat} (h : i < (allOfText text).length) :
    (allOfText text)[i] = ofText text i := by
  simp only [allOfText, List.getElem_map, List.getElem_range]

theorem eq_allOfText_iff {text : List Char} {lines : List Line} : lines = allOfText text ↔
    lines.length = lineCount text ∧ ∀ (i : Nat) (line : Line), lines[i]? = some line →
      line.number = i + 1 ∧ line.text = .ofList (Text.trimChars (outside text i)) := by
  constructor
  · rintro rfl
    refine ⟨length_allOfText text, fun i line hline ↦ ?_⟩
    obtain ⟨hi, rfl⟩ := List.getElem?_eq_some_iff.mp hline
    rw [getElem_allOfText]
    exact ⟨rfl, rfl⟩
  · rintro ⟨hlength, hlines⟩
    refine List.ext_getElem (hlength.trans (length_allOfText text).symm) fun i hi hi' ↦ ?_
    obtain ⟨hnumber, htext⟩ := hlines i lines[i] (List.getElem?_eq_getElem hi)
    rw [getElem_allOfText, ofText, ← hnumber, ← htext]

theorem Scan.Reads.finish_of_clear {scan : Scan} {text : List Char} (h : scan.Reads text)
    (hclear : nesting 0 text = 0) : scan.finish = .ok (allOfText text) := by
  have hdepth : ¬0 < scan.depth := by
    rw [h.depth, hclear]
    exact Nat.lt_irrefl 0
  rw [Scan.finish, if_neg hdepth, allOfText, lineCount, ← h.current]
  by_cases hcurrent : scan.current = []
  · rw [hcurrent, if_pos List.isEmpty_nil, List.reverse_nil, if_pos rfl, h.lines]
  · rw [if_neg (by rwa [List.isEmpty_iff]), if_neg (by rwa [List.reverse_eq_nil_iff]),
      Scan.endLine, List.reverse_cons, h.lines, List.range_succ, List.map_append,
      List.map_singleton, h.ofText_last]

theorem Scan.Reads.finish_of_isOutermost {scan : Scan} {front back : List Char}
    (h : scan.Reads (front ++ back)) (hback : IsOutermost front back) :
    scan.finish = .error ⟨front.count '\n' + 1, .unclosedComment⟩ := by
  have hdepth : 0 < scan.depth := by
    rw [h.depth]
    exact Nat.pos_of_ne_zero (nesting_ne_zero_iff.mpr ⟨front, back, rfl, hback⟩)
  rw [Scan.finish, if_pos hdepth, h.opened front back rfl hback]

/-- **A text has lines unless a comment is never closed**, and then they are what lies outside of
comments, line by line. -/
theorem split_eq_ok_iff {source : String} {lines : List Line} : split source = .ok lines ↔
    (¬∃ front back, source.toList = front ++ back ∧ IsOutermost front back) ∧
      lines = allOfText source.toList := by
  have hreads := Scan.reads_foldl source.toList
  rw [← nesting_ne_zero_iff, not_not]
  by_cases hclear : nesting 0 source.toList = 0
  · rw [split, hreads.finish_of_clear hclear, Except.ok.injEq, eq_comm]
    exact (and_iff_right hclear).symm
  · obtain ⟨front, back, htext, hback⟩ := nesting_ne_zero_iff.mp hclear
    rw [htext] at hreads
    rw [split, htext, hreads.finish_of_isOutermost hback]
    exact iff_of_false nofun fun h ↦ hclear (htext ▸ h.1)

theorem number_of_split {source : String} {above below : List Line} {line : Line}
    (h : split source = .ok (above ++ line :: below)) : line.number = above.length + 1 := by
  have hplace : (above ++ line :: below)[above.length]? = some line := by
    simp
  exact ((eq_allOfText_iff.mp (split_eq_ok_iff.mp h).2).2 above.length line hplace).1

/-- **A text has no lines just if a comment is never closed**, and the error tells the line on which
the first of them begins. -/
theorem split_eq_error_iff {source : String} {error : SyntaxError} : split source = .error error ↔
    ∃ front back, source.toList = front ++ back ∧ IsOutermost front back ∧
      error = ⟨front.count '\n' + 1, .unclosedComment⟩ := by
  have hreads := Scan.reads_foldl source.toList
  constructor
  · intro herror
    have hopen : nesting 0 source.toList ≠ 0 := by
      intro hclear
      rw [split, hreads.finish_of_clear hclear] at herror
      cases herror
    obtain ⟨front, back, htext, hback⟩ := nesting_ne_zero_iff.mp hopen
    rw [htext] at hreads
    rw [split, htext, hreads.finish_of_isOutermost hback, Except.error.injEq] at herror
    exact ⟨front, back, htext, hback, herror.symm⟩
  · rintro ⟨front, back, htext, hback, rfl⟩
    rw [htext] at hreads
    rw [split, htext, hreads.finish_of_isOutermost hback]

/-! ## Comments on one line -/

/-- Two scanners that differ at most in where the latest comment began, none being open. -/
inductive Scan.Agrees (scan : Scan) : Scan → Prop
  | refl : Agrees scan scan
  | closed (opened : Nat) (h : scan.depth = 0) : Agrees scan { scan with opened }

variable {scan scan' : Scan}

theorem Scan.Agrees.step (h : scan.Agrees scan') (c : Char) :
    (scan.step c).Agrees (scan'.step c) := by
  obtain _ | ⟨opened, hdepth⟩ := h
  · exact .refl
  · have hdepth' : { scan with opened }.depth = 0 := hdepth
    rcases scan.step_cases c with ⟨rfl, -⟩ | ⟨hline, hout, hstep⟩ | ⟨hline, hin, hstep⟩
    · exact .closed opened hdepth
    · rcases { scan with opened }.step_cases c with ⟨rfl, -⟩ | ⟨-, -, hstep'⟩ | ⟨-, hin', -⟩
      · exact absurd rfl hline
      · rw [hstep, hstep']
        exact .closed opened hdepth
      · exact absurd ⟨hdepth', hout.2⟩ hin'
    · rcases { scan with opened }.step_cases c with ⟨rfl, -⟩ | ⟨-, hout', -⟩ | ⟨-, -, hstep'⟩
      · exact absurd rfl hline
      · exact absurd ⟨hdepth, hout'.2⟩ hin
      · rw [hstep, hstep', if_pos hdepth, if_pos hdepth']
        exact .refl

theorem Scan.Agrees.foldl (h : scan.Agrees scan') (cs : List Char) :
    (cs.foldl Scan.step scan).Agrees (cs.foldl Scan.step scan') := by
  induction cs generalizing scan scan' with
  | nil => exact h
  | cons c cs ih => exact ih (h.step c)

theorem Scan.Agrees.finish_eq (h : scan.Agrees scan') : scan'.finish = scan.finish := by
  obtain _ | ⟨opened, hdepth⟩ := h
  · rfl
  · have hclosed : ¬0 < scan.depth := Nat.not_lt.mpr (Nat.le_of_eq hdepth)
    rw [Scan.finish, Scan.finish, if_neg hclosed, if_neg hclosed]
    rfl

theorem Scan.foldl_step_of_open {cs : List Char} (hline : '\n' ∉ cs)
    (hopen : ∀ n < cs.length, nesting scan.depth (cs.take n) ≠ 0) :
    cs.foldl Scan.step scan = { scan with depth := nesting scan.depth cs } := by
  induction cs generalizing scan with
  | nil => rfl
  | cons c cs ih =>
    rw [List.mem_cons, not_or] at hline
    have hdepth : scan.depth ≠ 0 := hopen 0 (Nat.succ_pos _)
    have hstep : scan.step c = { scan with depth := nest scan.depth c } := by
      rcases scan.step_cases c with ⟨rfl, -⟩ | ⟨-, hout, -⟩ | ⟨-, -, hstep⟩
      · exact absurd rfl hline.1
      · exact absurd hout.1 hdepth
      · rw [hstep, if_neg hdepth]
    rw [List.foldl_cons, hstep, ih hline.2 fun n hn ↦ hopen (n + 1) (Nat.succ_lt_succ hn)]
    rfl

/-- A comment on one line is passed. -/
theorem Scan.agrees_of_isComment (scan : Scan) {comment : List Char} (h : IsComment comment)
    (hline : '\n' ∉ comment) : scan.Agrees (comment.foldl Scan.step scan) := by
  obtain ⟨body, rfl⟩ := List.head?_eq_some_iff.mp h.opens
  have hbody : '\n' ∉ body := fun hmem ↦ hline (List.mem_cons_of_mem _ hmem)
  have hopen : ∀ n < body.length, nesting 1 (body.take n) ≠ 0 := fun n hn ↦
    h.stays_open (n + 1) (Nat.succ_lt_succ hn) (Nat.succ_pos n)
  have hpassed : nesting (scan.depth + 1) body = scan.depth := by
    rw [nesting_add scan.depth hopen]
    exact congrArg (scan.depth + ·) h.closes
  have hstays : ∀ n < body.length, nesting (scan.depth + 1) (body.take n) ≠ 0 := fun n hn ↦
    Nat.ne_of_gt (Nat.lt_of_lt_of_le (Nat.pos_of_ne_zero (hopen n hn))
      (nesting_mono (Nat.le_add_left 1 _) _))
  have hfold : ('(' :: body).foldl Scan.step scan =
      { scan with opened := if scan.depth = 0 then scan.number else scan.opened } := by
    rw [List.foldl_cons, Scan.foldl_step_of_open hbody hstays]
    change { scan with
      depth := nesting (scan.depth + 1) body
      opened := if scan.depth = 0 then scan.number else scan.opened } = _
    rw [hpassed]
  rw [hfold]
  split
  · next hdepth => exact .closed _ hdepth
  · exact .refl

theorem split_insert {source : String} {front comment back : List Char}
    (htext : source.toList = front ++ back) (h : IsComment comment) (hline : '\n' ∉ comment) :
    split (.ofList (front ++ (comment ++ back))) = split source := by
  rw [split, split, String.toList_ofList, htext, List.foldl_append, List.foldl_append,
    List.foldl_append]
  exact ((Scan.agrees_of_isComment _ h hline).foldl back).finish_eq

/-- **Comments are invisible, and lines keep their numbers.** A comment on one line changes nothing
wherever it is put. A text has lines unless one of its comments is never closed; the lines are then
numbered as they stand, and each is what lies outside of comments on it, trimmed. Otherwise the line
is reported on which the first such comment begins. -/
theorem split_passes_comments (source : String) :
    (∀ front comment back, source.toList = front ++ back → IsComment comment → '\n' ∉ comment →
      split (.ofList (front ++ (comment ++ back))) = split source) ∧
    (∀ lines, split source = .ok lines ↔
      (¬∃ front back, source.toList = front ++ back ∧ IsOutermost front back) ∧
      lines.length = lineCount source.toList ∧
      ∀ (i : Nat) (line : Line), lines[i]? = some line → line.number = i + 1 ∧
        line.text = .ofList (Text.trimChars (outside source.toList i))) ∧
    (∀ error, split source = .error error ↔
      ∃ front back, source.toList = front ++ back ∧ IsOutermost front back ∧
        error = ⟨front.count '\n' + 1, .unclosedComment⟩) := by
  refine ⟨fun front comment back htext h hline ↦ split_insert htext h hline, fun lines ↦ ?_,
    fun error ↦ split_eq_error_iff⟩
  rw [split_eq_ok_iff, eq_allOfText_iff]

/-- A comment with another one in it is put between two cells of a row. -/
theorem split_passes_comments_row :
    IsComment ['(', 'a', '(', ')', ')'] ∧
      split (.ofList (['P'] ++ (['(', 'a', '(', ')', ')'] ++ ['.']))) =
        split (.ofList ['P', '.']) := by
  have hcomment : IsComment ['(', 'a', '(', ')', ')'] := ⟨rfl, rfl, by decide⟩
  exact ⟨hcomment, (split_passes_comments (.ofList ['P', '.'])).1 ['P'] _ ['.']
    String.toList_ofList hcomment (by decide)⟩

end Line

end TilePuzzle
