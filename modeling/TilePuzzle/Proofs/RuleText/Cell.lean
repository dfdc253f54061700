import Mathlib.Data.List.Forall2
import TilePuzzle.Document.RuleDeclaration.Reader
import TilePuzzle.Proofs.Outcome
import TilePuzzle.Proofs.RuleText.Layout

/-!
# The words of a cell

A cell of a pattern is written as words. Once the movement symbols that are glued to other words are
split off, these are the words of its terms, one term after the other.

## Which cell is read

The same words may be those of several cells, since `no` and the movement words may also be names.
The reader takes such a word for a keyword wherever something follows it in the cell; so of these
cells it finds the one that is *clear*, in which no name could have been taken for a keyword.

## Both directions

That a clear cell is read off its words is an induction on its terms (`readTerms_append`). That
whatever is read is a clear cell with these words is one on the words, with the keywords in front of
the present word carried along (`before`).
-/

namespace TilePuzzle

/-! ## Keywords -/

namespace Text

/-- Words that are given keywords, in any ASCII case. -/
def SameWords (keywords words : List String) : Prop :=
  List.Forall₂ (fun keyword word ↦ sameWord keyword word = true) keywords words

theorem SameWords.exists_mem {keywords words : List String} (h : SameWords keywords words) :
    ∀ w ∈ words, ∃ keyword ∈ keywords, sameWord keyword w = true := by
  induction h with
  | nil => exact fun _ hnil ↦ absurd hnil List.not_mem_nil
  | @cons keyword w _ _ hword _ ih =>
    rw [List.forall_mem_cons]
    refine ⟨⟨keyword, List.mem_cons_self, hword⟩, fun other hother ↦ ?_⟩
    obtain ⟨found, hfound, hsame⟩ := ih other hother
    exact ⟨found, List.mem_cons_of_mem _ hfound, hsame⟩

/-- Where no two values are spelled alike, reading a word finds the one that is spelled so. -/
theorem readWord?_eq_some_iff {α : Type} {values : List α} {spelling : α → String}
    (hvalues : ∀ a ∈ values, ∀ b ∈ values, fold (spelling a) = fold (spelling b) → a = b)
    {word : String} {value : α} :
    readWord? values spelling word = some value ↔
      value ∈ values ∧ sameWord (spelling value) word = true := by
  have hsound : ∀ {found}, readWord? values spelling word = some found →
      found ∈ values ∧ sameWord (spelling found) word = true := by
    intro found hfound
    have hword := List.find?_some (p := fun value ↦ sameWord (spelling value) word) hfound
    exact ⟨List.mem_of_find?_eq_some hfound, hword⟩
  constructor
  · exact hsound
  · rintro ⟨hmem, hword⟩
    cases hfind : readWord? values spelling word with
    | none => exact absurd hword (List.find?_eq_none.mp hfind value hmem)
    | some found =>
      obtain ⟨hfound, hfoundWord⟩ := hsound hfind
      rw [sameWord_iff] at hword hfoundWord
      exact congrArg some (hvalues found hfound value hmem (hfoundWord.trans hword.symm))

end Text

open Text (SameWords sameWord)

theorem Heading.mem_all (heading : Heading) : heading ∈ all := by
  rcases heading with direction | _ | _ | _
  · cases direction <;> decide
  · decide
  · decide
  · decide

theorem Heading.ofWord?_eq_some_iff {word : String} {heading : Heading} :
    ofWord? word = some heading ↔ sameWord heading.word word = true := by
  rw [ofWord?, Text.readWord?_eq_some_iff (by decide +kernel), and_iff_right heading.mem_all]

theorem MovementWord.mem_all (movement : MovementWord) : movement ∈ all := by
  rcases movement with bearing | movement | _
  · cases bearing <;> decide
  · rcases movement with direction | _
    · cases direction <;> decide
    · decide
  · decide

theorem MovementWord.ofWord?_eq_some_iff {word : String} {movement : MovementWord} :
    ofWord? word = some movement ↔ sameWord movement.word word = true := by
  rw [ofWord?, Text.readWord?_eq_some_iff (by decide +kernel), and_iff_right movement.mem_all]

theorem MovementWord.not_sameWord_no (movement : MovementWord) {word : String}
    (h : sameWord movement.word word = true) : sameWord "no" word = false := by
  have hfold : ∀ movement ∈ all, Text.fold movement.word ≠ Text.fold "no" := by decide
  rw [Text.sameWord_iff] at h
  refine eq_false_of_ne_true fun hno ↦ hfold movement movement.mem_all ?_
  rw [h, (Text.sameWord_iff _ _).mp hno]

theorem RuleCommand.mem_all (command : RuleCommand) : command ∈ all := by
  cases command <;> decide

theorem RuleCommand.ofWord?_eq_some_iff {word : String} {command : RuleCommand} :
    ofWord? word = some command ↔ sameWord command.word word = true := by
  rw [ofWord?, Text.readWord?_eq_some_iff (by decide +kernel), and_iff_right command.mem_all]

/-! ## Terms -/

namespace PatternTerm

/-- The keywords in front of the name of a term: `no` if it is negated, and its movement. -/
def keywords (term : PatternTerm) : List String :=
  (if term.negated then ["no"] else []) ++ (term.movement.map MovementWord.word).toList

/-- The words of a term: its keywords and its name. -/
def IsSpelled (term : PatternTerm) (words : List String) : Prop :=
  ∃ front, SameWords term.keywords front ∧ words = front ++ [term.name]

/-- The name of a term could not have been taken for a keyword in front of a name. -/
def IsClear (term : PatternTerm) : Prop :=
  term.movement = none → MovementWord.ofWord? term.name = none ∧
    (term.negated = false → sameWord "no" term.name = false)

end PatternTerm

/-! ## Cells -/

namespace RuleDeclaration

/-- The movement symbols that may be glued to the word behind them. -/
def symbols : List String := [">", "<", "^"]

/-- The pieces of a word: a movement symbol that it begins with and the rest of it, or if there is
no such symbol or no rest, the whole word. -/
inductive FallsInto : String → List String → Prop
  | split {symbol rest : String} (mem : symbol ∈ symbols) (ne : rest ≠ "") :
      FallsInto (symbol ++ rest) [symbol, rest]
  | whole {word : String} (ne : ∀ symbol ∈ symbols, ∀ rest, rest ≠ "" → word ≠ symbol ++ rest) :
      FallsInto word [word]

theorem exists_of_mem_symbols {symbol : String} (h : symbol ∈ symbols) :
    ∃ c ∈ ['>', '<', '^'], symbol = .ofList [c] := by
  simp only [symbols, List.mem_cons, List.not_mem_nil, or_false] at h
  rcases h with rfl | rfl | rfl
  · exact ⟨'>', by decide, rfl⟩
  · exact ⟨'<', by decide, rfl⟩
  · exact ⟨'^', by decide, rfl⟩

theorem splitSymbol_append {symbol rest : String} (hsymbol : symbol ∈ symbols) (hrest : rest ≠ "") :
    splitSymbol (symbol ++ rest) = [symbol, rest] := by
  obtain ⟨c, cs, hcs⟩ := List.exists_cons_of_ne_nil fun h ↦ hrest (String.toList_eq_nil_iff.mp h)
  obtain ⟨d, hd, rfl⟩ := exists_of_mem_symbols hsymbol
  rw [splitSymbol, String.toList_append, String.toList_ofList, hcs, List.singleton_append]
  dsimp only
  rw [if_pos (by simpa using hd), ← hcs, String.ofList_toList]

theorem splitSymbol_of_forall_ne {word : String}
    (h : ∀ symbol ∈ symbols, ∀ rest, rest ≠ "" → word ≠ symbol ++ rest) :
    splitSymbol word = [word] := by
  rw [splitSymbol]
  split
  · next symbol c rest hword =>
    refine if_neg fun hsymbol ↦ h (.ofList [symbol]) ?_ (.ofList (c :: rest)) (by simp) ?_
    · rcases hsymbol with rfl | rfl | rfl <;> decide
    · rw [← String.toList_inj, hword, String.toList_append, String.toList_ofList,
        String.toList_ofList]
      rfl
  · rfl

theorem splitSymbol_eq_iff {word : String} {pieces : List String} :
    splitSymbol word = pieces ↔ FallsInto word pieces := by
  constructor
  · rintro rfl
    by_cases h : ∃ symbol ∈ symbols, ∃ rest, rest ≠ "" ∧ word = symbol ++ rest
    · obtain ⟨symbol, hsymbol, rest, hrest, rfl⟩ := h
      rw [splitSymbol_append hsymbol hrest]
      exact .split hsymbol hrest
    · have hwhole : ∀ symbol ∈ symbols, ∀ rest, rest ≠ "" → word ≠ symbol ++ rest :=
        fun symbol hsymbol rest hrest heq ↦ h ⟨symbol, hsymbol, rest, hrest, heq⟩
      rw [splitSymbol_of_forall_ne hwhole]
      exact .whole hwhole
  · intro h
    cases h with
    | split hsymbol hrest => exact splitSymbol_append hsymbol hrest
    | whole hne => exact splitSymbol_of_forall_ne hne

theorem forall₂_fallsInto_iff {words : List String} {parts : List (List String)} :
    List.Forall₂ FallsInto words parts ↔ parts = words.map splitSymbol := by
  have hsplit : FallsInto = fun word pieces ↦ splitSymbol word = pieces := by
    funext word pieces
    exact propext splitSymbol_eq_iff.symm
  rw [hsplit, ← List.forall₂_map_left_iff, List.forall₂_eq_eq_eq, eq_comm]

end RuleDeclaration

namespace CellPattern

open RuleDeclaration

/-- Pieces of words that are those of the terms of a cell, one term after the other. -/
def IsRead (cell : CellPattern) (pieces : List String) : Prop :=
  ∃ parts, List.Forall₂ PatternTerm.IsSpelled cell parts ∧ pieces = parts.flatten

/-- The words of a cell fall into those of its terms, one term after the other. -/
def IsSpelled (cell : CellPattern) (words : List String) : Prop :=
  ∃ pieces, List.Forall₂ FallsInto words pieces ∧ cell.IsRead pieces.flatten

/-- No name in the cell could have been taken for a keyword, as it could if anything follows it. -/
def IsClear (cell : CellPattern) : Prop := ∀ term ∈ cell.dropLast, term.IsClear

theorem isSpelled_iff {cell : CellPattern} {words : List String} :
    cell.IsSpelled words ↔ cell.IsRead (words.flatMap splitSymbol) := by
  simp only [IsSpelled, forall₂_fallsInto_iff, exists_eq_left, List.flatMap_def]

variable {cell : CellPattern} {term : PatternTerm}

@[simp] theorem isRead_nil_iff {pieces : List String} : IsRead [] pieces ↔ pieces = [] := by
  simp [IsRead]

theorem isRead_cons_iff {pieces : List String} : IsRead (term :: cell) pieces ↔
    ∃ part rest, term.IsSpelled part ∧ cell.IsRead rest ∧ pieces = part ++ rest := by
  constructor
  · rintro ⟨parts, hparts, rfl⟩
    obtain ⟨part, rest, hpart, hrest, rfl⟩ := List.forall₂_cons_left_iff.mp hparts
    exact ⟨part, rest.flatten, hpart, ⟨rest, hrest, rfl⟩, rfl⟩
  · rintro ⟨part, rest, hpart, ⟨parts, hparts, rfl⟩, rfl⟩
    exact ⟨part :: parts, .cons hpart hparts, rfl⟩

theorem IsRead.eq_nil (h : cell.IsRead []) : cell = [] := by
  cases cell with
  | nil => rfl
  | cons term cell =>
    obtain ⟨part, rest, ⟨front, -, rfl⟩, -, heq⟩ := isRead_cons_iff.mp h
    simp at heq

theorem isClear_cons_iff :
    IsClear (term :: cell) ↔ (cell ≠ [] → term.IsClear) ∧ cell.IsClear := by
  cases cell with
  | nil => simp [IsClear]
  | cons next cell => simp [IsClear]

end CellPattern

/-! ## The reader of cells -/

namespace RuleDeclaration

open CellPattern

variable {cell : CellPattern} {term : PatternTerm}

/-- The keywords that are written in front of what is being read. -/
def before (negated : Bool) (movement : Option MovementWord) : List String :=
  PatternTerm.keywords ⟨negated, movement, ""⟩

theorem before_some (negated : Bool) (movement : MovementWord) :
    before negated (some movement) = before negated none ++ [movement.word] := by
  simp [before, PatternTerm.keywords]

theorem eq_nil_of_before {front : List String} (h : SameWords (before false none) front) :
    front = [] := List.forall₂_nil_left_iff.mp h

theorem movementBefore?_eq_some_iff {word : String} {rest : List String} {movement : MovementWord} :
    movementBefore? word rest = some movement ↔
      rest ≠ [] ∧ MovementWord.ofWord? word = some movement := by
  cases rest with
  | nil => simp [movementBefore?]
  | cons next rest => simp [movementBefore?]

/-- A name ends a term, and the terms behind it are read off the words behind it. -/
theorem exists_eq_of_name {all : CellPattern} {terms : List PatternTerm} {rest : List String}
    (term : PatternTerm) (hterm : rest ≠ [] → term.IsClear)
    (h : ∃ cell : CellPattern, all = (term :: terms).reverse ++ cell ∧ cell.IsClear ∧
      ∀ front, SameWords (before false none) front → cell.IsRead (front ++ rest)) :
    ∃ cell : CellPattern, all = terms.reverse ++ cell ∧ cell.IsClear ∧
      ∀ front, SameWords term.keywords front → cell.IsRead (front ++ term.name :: rest) := by
  obtain ⟨cell, rfl, hclear, hread⟩ := h
  have hrest : cell.IsRead rest := hread [] .nil
  refine ⟨term :: cell, by simp, isClear_cons_iff.mpr ⟨fun hcell ↦ hterm ?_, hclear⟩, ?_⟩
  · rintro rfl
    exact hcell hrest.eq_nil
  · intro front hfront
    exact isRead_cons_iff.mpr ⟨front ++ [term.name], rest, ⟨front, hfront, rfl⟩, hrest, by simp⟩

/-- What is read off words is written as these words, behind the keywords that were read before. -/
theorem exists_readTerms_eq {negated : Bool} {movement : Option MovementWord}
    {terms : List PatternTerm} {words : List String}
    (h : words = [] → negated = false ∧ movement = none) :
    ∃ cell : CellPattern, readTerms negated movement terms words = terms.reverse ++ cell ∧
      cell.IsClear ∧
      ∀ front, SameWords (before negated movement) front → cell.IsRead (front ++ words) := by
  induction negated, movement, terms, words using readTerms.induct with
  | case1 negated movement terms =>
    obtain ⟨rfl, rfl⟩ := h rfl
    refine ⟨[], by rw [readTerms, List.append_nil], nofun, fun front hfront ↦ ?_⟩
    rw [eq_nil_of_before hfront]
    exact isRead_nil_iff.mpr rfl
  | case2 negated movement terms word rest ih =>
    rw [readTerms]
    exact exists_eq_of_name ⟨negated, some movement, word⟩ (fun _ ↦ nofun) (ih fun _ ↦ ⟨rfl, rfl⟩)
  | case3 negated terms word rest hno ih =>
    simp only [Bool.and_eq_true, Bool.not_eq_true', List.isEmpty_eq_false_iff] at hno
    obtain ⟨⟨rfl, hrest⟩, hword⟩ := hno
    obtain ⟨cell, hcell, hclear, hread⟩ := ih fun hnil ↦ absurd hnil hrest
    refine ⟨cell, ?_, hclear, fun front hfront ↦ ?_⟩
    · rw [readTerms, if_pos (by simp [hrest, hword])]
      exact hcell
    · rw [eq_nil_of_before hfront]
      exact hread [word] (.cons hword .nil)
  | case4 negated terms word rest hno movement hmovement ih =>
    obtain ⟨hrest, hword⟩ := movementBefore?_eq_some_iff.mp hmovement
    obtain ⟨cell, hcell, hclear, hread⟩ := ih fun hnil ↦ absurd hnil hrest
    refine ⟨cell, ?_, hclear, fun front hfront ↦ ?_⟩
    · rw [readTerms, if_neg hno, hmovement]
      exact hcell
    · have hfront' : SameWords (before negated (some movement)) (front ++ [word]) := by
        rw [before_some]
        exact List.rel_append hfront (.cons (MovementWord.ofWord?_eq_some_iff.mp hword) .nil)
      have hcell := hread _ hfront'
      rwa [List.append_assoc] at hcell
  | case5 negated terms word rest hno hmovement ih =>
    rw [readTerms, if_neg hno, hmovement]
    refine exists_eq_of_name ⟨negated, none, word⟩ (fun hrest _ ↦ ?_) (ih fun _ ↦ ⟨rfl, rfl⟩)
    rw [movementBefore?, if_neg (by simpa using hrest)] at hmovement
    refine ⟨hmovement, fun hnegated ↦ eq_false_of_ne_true fun hword ↦ hno ?_⟩
    rw [show negated = false from hnegated, show sameWord "no" word = true from hword]
    simpa using hrest

section

variable {negated : Bool} {terms : List PatternTerm} {word name : String} {rest : List String}

theorem readTerms_no (hword : sameWord "no" word = true) (hrest : rest ≠ []) :
    readTerms false none terms (word :: rest) = readTerms true none terms rest := by
  rw [readTerms, if_pos (by simp [hword, hrest])]

theorem readTerms_movement {movement : MovementWord}
    (hword : sameWord movement.word word = true) :
    readTerms negated none terms (word :: name :: rest) =
      readTerms false none (⟨negated, some movement, name⟩ :: terms) rest := by
  have hno : sameWord "no" word = false := movement.not_sameWord_no hword
  have hmovement : movementBefore? word (name :: rest) = some movement :=
    movementBefore?_eq_some_iff.mpr ⟨by simp, MovementWord.ofWord?_eq_some_iff.mpr hword⟩
  rw [readTerms, if_neg (by simp [hno]), hmovement]
  exact readTerms.eq_2 _ _ _ _ _

theorem readTerms_name (h : rest ≠ [] → PatternTerm.IsClear ⟨negated, none, name⟩) :
    readTerms negated none terms (name :: rest) =
      readTerms false none (⟨negated, none, name⟩ :: terms) rest := by
  rw [readTerms]
  cases rest with
  | nil => simp [movementBefore?]
  | cons next rest =>
    obtain ⟨hmovement, hno⟩ := h (by simp) rfl
    rw [if_neg, movementBefore?, if_neg (by simp)]
    · rw [show MovementWord.ofWord? name = none from hmovement]
    · cases negated with
      | true => simp
      | false => simp [show sameWord "no" name = false from hno rfl]

end

theorem readTerms_append {part rest : List String} {terms : List PatternTerm}
    (hpart : term.IsSpelled part) (hclear : rest ≠ [] → term.IsClear) :
    readTerms false none terms (part ++ rest) = readTerms false none (term :: terms) rest := by
  obtain ⟨front, hfront, rfl⟩ := hpart
  obtain ⟨negated, movement, name⟩ := term
  rw [PatternTerm.keywords] at hfront
  cases negated with
  | false =>
    cases movement with
    | none =>
      obtain rfl := List.forall₂_nil_left_iff.mp hfront
      exact readTerms_name hclear
    | some movement =>
      obtain ⟨word, others, hword, hothers, rfl⟩ := List.forall₂_cons_left_iff.mp hfront
      obtain rfl := List.forall₂_nil_left_iff.mp hothers
      exact readTerms_movement hword
  | true =>
    obtain ⟨no, others, hno, hothers, rfl⟩ := List.forall₂_cons_left_iff.mp hfront
    cases movement with
    | none =>
      obtain rfl := List.forall₂_nil_left_iff.mp hothers
      exact (readTerms_no hno (by simp)).trans (readTerms_name hclear)
    | some movement =>
      obtain ⟨word, rest', hword, hrest', rfl⟩ := List.forall₂_cons_left_iff.mp hothers
      obtain rfl := List.forall₂_nil_left_iff.mp hrest'
      exact (readTerms_no hno (by simp)).trans (readTerms_movement hword)

/-- **What the words of a cell are read as**: the clear cell that they are those of. -/
theorem readCell_eq_iff {pieces : List String} :
    readCell pieces = cell ↔ cell.IsRead pieces ∧ cell.IsClear := by
  constructor
  · rintro rfl
    obtain ⟨cell, hcell, hclear, hread⟩ :=
      @exists_readTerms_eq false none [] pieces fun _ ↦ ⟨rfl, rfl⟩
    rw [readCell, hcell]
    exact ⟨hread [] .nil, hclear⟩
  · rintro ⟨hread, hclear⟩
    suffices h : ∀ terms, readTerms false none terms pieces = terms.reverse ++ cell from h []
    induction cell generalizing pieces with
    | nil =>
      intro terms
      rw [isRead_nil_iff.mp hread, readTerms, List.append_nil]
    | cons term cell ih =>
      intro terms
      obtain ⟨part, rest, hpart, hrest, rfl⟩ := isRead_cons_iff.mp hread
      rw [isClear_cons_iff] at hclear
      have hcell : rest ≠ [] → cell ≠ [] := by
        rintro hne rfl
        exact hne (isRead_nil_iff.mp hrest)
      rw [readTerms_append hpart fun hne ↦ hclear.1 (hcell hne), ih hrest hclear.2]
      simp

end RuleDeclaration

end TilePuzzle
