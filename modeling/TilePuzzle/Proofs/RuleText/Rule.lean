import TilePuzzle.Proofs.RuleText.Cell

/-!
# Rules as sequences of tokens

A rule is written as words in front, a pattern, an arrow, possibly a second pattern, and words
behind; a pattern is its cells between brackets, with bars between them. How a cell is written is
left open here: everything below is said for any relation between cells and their words.

## The parts of the reader

The reader goes through the tokens once and never back. Each of its parts is shown to accept just
what its part of a rule is written as, and leaves the tokens behind it to the next. So the tokens of
a line are a rule just if they are written in this way, and then none is left out.

The reader of a pattern is the only one that recurses. It is described with a row of cells that are
read and a cell that is open (`readPattern_opened_iff`).
-/

namespace TilePuzzle

open Text (SameWords sameWord)

/-! ## Sequences of tokens -/

/-- The tokens of a pattern whose cells have given words: its cells in brackets, with bars between
them. -/
def Token.ofRows (rows : List (List String)) : List Token :=
  opening :: [bar].intercalate (rows.map fun row ↦ row.map word) ++ [closing]

/-- Tokens that a pattern is written as. -/
def IsPattern (isCell : CellPattern → List String → Prop) (cells : List CellPattern)
    (tokens : List Token) : Prop :=
  ∃ rows, rows ≠ [] ∧ List.Forall₂ isCell cells rows ∧ tokens = Token.ofRows rows

/-- Tokens that a right pattern is written as; where there is none, no tokens. -/
def IsRightPattern (isCell : CellPattern → List String → Prop) :
    Option (List CellPattern) → List Token → Prop
  | none, tokens => tokens = []
  | some cells, tokens => IsPattern isCell cells tokens

namespace RuleDeclaration

/-- Tokens that a rule is written as. The words in front are headings, and a `+` among them joins
the rule to the one before it. -/
def IsWritten (isCell : CellPattern → List String → Prop) (rule : RuleDeclaration)
    (tokens : List Token) : Prop :=
  ∃ (front : List String) (left right : List Token) (behind : List String),
    tokens = front.map .word ++ (left ++ .arrow :: (right ++ behind.map .word)) ∧
    (rule.joinsPrevious = true ↔ "+" ∈ front) ∧
    SameWords (rule.headings.map Heading.word) (front.filter (· ≠ "+")) ∧
    IsPattern isCell rule.left left ∧
    IsRightPattern isCell rule.right right ∧
    SameWords (rule.commands.map RuleCommand.word) behind

/-- The cells of both patterns. -/
def cells (rule : RuleDeclaration) : List CellPattern := rule.left ++ rule.right.getD []

/-! ## The parts of the reader -/

variable {tokens rest : List Token}

theorem readFront_of_not_word {joins : Bool} {headings : List Heading}
    (h : ∀ next ∈ rest.head?, next.isWord = false) :
    readFront joins headings rest = .ok (joins, headings.reverse, rest) := by
  cases rest with
  | nil => rfl
  | cons token rest =>
    cases token with
    | word w => cases h _ rfl
    | _ => rfl

theorem readFront_eq_ok_iff {joins joins' : Bool} {headings headings' : List Heading} :
    readFront joins headings tokens = .ok (joins', headings', rest) ↔
      ∃ (front : List String) (found : List Heading), tokens = front.map .word ++ rest ∧
        (∀ next ∈ rest.head?, next.isWord = false) ∧ joins' = (joins || front.contains "+") ∧
        headings' = headings.reverse ++ found ∧
        SameWords (found.map Heading.word) (front.filter (· ≠ "+")) := by
  constructor
  · intro h
    induction tokens generalizing joins headings with
    | nil =>
      cases h
      exact ⟨[], [], rfl, nofun, by simp, by simp, .nil⟩
    | cons token tokens ih =>
      cases token with
      | word w =>
        rw [readFront] at h
        split at h
        · next hplus =>
          obtain ⟨front, found, rfl, hrest, rfl, rfl, hfound⟩ := ih h
          exact ⟨w :: front, found, rfl, hrest, by simp [hplus], rfl, by simpa [hplus] using hfound⟩
        · next hplus =>
          split at h
          · cases h
          · next heading hheading =>
            obtain ⟨front, found, rfl, hrest, rfl, rfl, hfound⟩ := ih h
            refine ⟨w :: front, heading :: found, rfl, hrest, ?_, by simp, ?_⟩
            · simp [Ne.symm hplus]
            · rw [List.filter_cons_of_pos (by simpa using hplus), List.map_cons]
              exact .cons (Heading.ofWord?_eq_some_iff.mp hheading) hfound
      | _ =>
        cases h
        exact ⟨[], [], rfl, by rintro next ⟨⟩; rfl, by simp, by simp, .nil⟩
  · rintro ⟨front, found, rfl, hrest, rfl, rfl, hfound⟩
    induction front generalizing joins headings found with
    | nil =>
      obtain rfl := List.map_eq_nil_iff.mp (List.forall₂_nil_right_iff.mp hfound)
      rw [List.map_nil, List.nil_append, List.append_nil, List.contains_nil, Bool.or_false]
      exact readFront_of_not_word hrest
    | cons w front ih =>
      rw [List.map_cons, List.cons_append, readFront]
      by_cases hplus : w = "+"
      · rw [if_pos hplus, ih found (by simpa [hplus] using hfound)]
        simp [hplus]
      · rw [List.filter_cons_of_pos (by simpa using hplus)] at hfound
        obtain ⟨keyword, others, hkeyword, hothers, hwords⟩ := List.forall₂_cons_right_iff.mp hfound
        obtain ⟨heading, others, rfl, rfl, rfl⟩ := List.map_eq_cons_iff.mp hwords
        rw [if_neg hplus, Heading.ofWord?_eq_some_iff.mpr hkeyword]
        dsimp only
        rw [ih others hothers]
        simp [Ne.symm hplus]

theorem readOpening_eq_ok_iff : readOpening tokens = .ok rest ↔ tokens = .opening :: rest := by
  constructor
  · intro h
    cases tokens with
    | nil => cases h
    | cons token tokens =>
      cases token with
      | opening => cases h; rfl
      | _ => cases h
  · rintro rfl
    rfl

theorem readArrow_eq_ok_iff : readArrow tokens = .ok rest ↔ tokens = .arrow :: rest := by
  constructor
  · intro h
    cases tokens with
    | nil => cases h
    | cons token tokens =>
      cases token with
      | arrow => cases h; rfl
      | _ => cases h
  · rintro rfl
    rfl

theorem readPattern_map_word {row words : List String} {cells : List CellPattern} :
    readPattern words cells (row.map .word ++ tokens) =
      readPattern ((row.flatMap splitSymbol).reverse ++ words) cells tokens := by
  induction row generalizing words with
  | nil => rfl
  | cons word row ih =>
    simp [readPattern, ih]

/-- How the reader takes the words of a cell. -/
def cellOf (row : List String) : CellPattern := readCell (row.flatMap splitSymbol)

/-- The tokens of more cells, up to the closing bracket. -/
def moreRows (rows : List (List String)) : List Token :=
  rows.flatMap fun row ↦ .bar :: row.map .word

theorem readPattern_eq_ok_iff {words : List String} {cells pattern : List CellPattern} :
    readPattern words cells tokens = .ok (pattern, rest) ↔
      ∃ (row : List String) (rows : List (List String)),
        tokens = row.map .word ++ (moreRows rows ++ .closing :: rest) ∧
          pattern = cells.reverse ++
            readCell (words.reverse ++ row.flatMap splitSymbol) :: rows.map cellOf := by
  constructor
  · intro h
    induction tokens generalizing words cells with
    | nil => cases h
    | cons token tokens ih =>
      cases token with
      | word w =>
        obtain ⟨row, rows, rfl, rfl⟩ := ih h
        exact ⟨w :: row, rows, rfl, by simp⟩
      | bar =>
        obtain ⟨row, rows, rfl, rfl⟩ := ih h
        exact ⟨[], row :: rows, by simp [moreRows], by simp [cellOf]⟩
      | closing =>
        cases h
        exact ⟨[], [], rfl, by simp⟩
      | opening => cases h
      | arrow => cases h
  · rintro ⟨row, rows, rfl, rfl⟩
    induction rows generalizing words cells row with
    | nil =>
      rw [readPattern_map_word]
      simp [moreRows, readPattern]
    | cons next rows ih =>
      have hmore : moreRows (next :: rows) ++ .closing :: rest =
          .bar :: (next.map .word ++ (moreRows rows ++ .closing :: rest)) := by
        simp [moreRows]
      rw [readPattern_map_word, hmore, readPattern, ih next]
      simp [cellOf]

theorem readCommand_eq_ok_iff {token : Token} {command : RuleCommand} :
    readCommand token = .ok command ↔
      ∃ w, token = .word w ∧ sameWord command.word w = true := by
  simp only [← RuleCommand.ofWord?_eq_some_iff]
  cases token with
  | word w =>
    rw [readCommand]
    cases hread : RuleCommand.ofWord? w with
    | none => simp [hread]
    | some found => simp [hread]
  | _ => simp [readCommand]

theorem mapM_readCommand_eq_ok_iff {commands : List RuleCommand} :
    tokens.mapM readCommand = .ok commands ↔
      ∃ words : List String, tokens = words.map .word ∧
        SameWords (commands.map RuleCommand.word) words := by
  induction tokens generalizing commands with
  | nil =>
    rw [List.mapM_nil, pure_eq_ok_iff]
    constructor
    · rintro rfl
      exact ⟨[], rfl, .nil⟩
    · rintro ⟨words, hwords, hcommands⟩
      obtain rfl := List.map_eq_nil_iff.mp hwords.symm
      exact (List.map_eq_nil_iff.mp (List.forall₂_nil_right_iff.mp hcommands)).symm
  | cons token tokens ih =>
    simp only [List.mapM_cons, bind_eq_ok_iff, pure_eq_ok_iff, readCommand_eq_ok_iff, ih]
    constructor
    · rintro ⟨command, ⟨w, rfl, hw⟩, others, ⟨words, rfl, hwords⟩, rfl⟩
      exact ⟨w :: words, rfl, .cons hw hwords⟩
    · rintro ⟨words, hwords, hcommands⟩
      obtain ⟨w, words, rfl, rfl, rfl⟩ := List.map_eq_cons_iff.mp hwords.symm
      obtain ⟨keyword, others, hw, hothers, heq⟩ := List.forall₂_cons_right_iff.mp hcommands
      obtain ⟨command, others, rfl, rfl, rfl⟩ := List.map_eq_cons_iff.mp heq
      exact ⟨command, ⟨w, rfl, hw⟩, others, ⟨words, rfl, hothers⟩, rfl⟩

/-! ## The whole reader -/

/-- How the reader takes a cell and its words. -/
def IsTaken (cell : CellPattern) (row : List String) : Prop := cellOf row = cell

theorem forall₂_isTaken_iff {cells : List CellPattern} {rows : List (List String)} :
    List.Forall₂ IsTaken cells rows ↔ cells = rows.map cellOf := by
  have htaken : IsTaken = fun cell row ↦ cell = cellOf row := by
    funext cell row
    exact propext eq_comm
  rw [htaken, ← List.forall₂_map_right_iff, List.forall₂_eq_eq_eq]

theorem ofRows_cons (row : List String) (rows : List (List String)) :
    Token.ofRows (row :: rows) = .opening :: (row.map .word ++ (moreRows rows ++ [.closing])) := by
  have hrows : [Token.bar].intercalate ((row :: rows).map fun row ↦ row.map .word) =
      row.map .word ++ moreRows rows := by
    induction rows generalizing row with
    | nil => simp [List.intercalate, moreRows]
    | cons next rows ih =>
      have hnext := ih next
      rw [List.map_cons, List.intercalate] at hnext
      rw [List.map_cons, List.map_cons, List.intercalate, List.intersperse_cons_cons,
        List.flatten_cons, List.flatten_cons, hnext]
      rfl
  rw [Token.ofRows, hrows]
  simp

/-- The reader of a pattern leaves what stands behind it. -/
theorem readPattern_opened_iff {cells : List CellPattern} :
    readPattern [] [] tokens = .ok (cells, rest) ↔
      ∃ read, IsPattern IsTaken cells read ∧ .opening :: tokens = read ++ rest := by
  rw [readPattern_eq_ok_iff]
  constructor
  · rintro ⟨row, rows, rfl, rfl⟩
    refine ⟨Token.ofRows (row :: rows), ⟨row :: rows, by simp, ?_, rfl⟩, ?_⟩
    · exact forall₂_isTaken_iff.mpr rfl
    · simp [ofRows_cons]
  · rintro ⟨read, ⟨rows, hne, hcells, rfl⟩, heq⟩
    obtain ⟨row, rows, rfl⟩ := List.exists_cons_of_ne_nil hne
    rw [forall₂_isTaken_iff] at hcells
    rw [ofRows_cons] at heq
    exact ⟨row, rows, by simpa using heq, hcells⟩

theorem head?_of_isPattern {isCell : CellPattern → List String → Prop} {cells : List CellPattern}
    {read : List Token} (h : IsPattern isCell cells read) (rest : List Token) :
    (read ++ rest).head? = some .opening := by
  obtain ⟨rows, hne, -, rfl⟩ := h
  obtain ⟨row, rows, rfl⟩ := List.exists_cons_of_ne_nil hne
  rw [ofRows_cons]
  rfl

theorem readRight_eq_ok_iff {right : Option (List CellPattern)} :
    readRight tokens = .ok (right, rest) ↔
      (∃ cells read, right = some cells ∧ IsPattern IsTaken cells read ∧ tokens = read ++ rest) ∨
        right = none ∧ tokens = rest ∧ rest.head? ≠ some .opening := by
  by_cases hhead : tokens.head? = some .opening
  · obtain ⟨tokens, rfl⟩ := List.head?_eq_some_iff.mp hhead
    rw [or_iff_left (by rintro ⟨-, rfl, hne⟩; exact hne hhead), readRight]
    simp only [bind_eq_ok_iff, Prod.exists, readPattern_opened_iff, pure_eq_ok_iff, Prod.mk.injEq]
    constructor
    · rintro ⟨cells, rest, ⟨read, hread, heq⟩, rfl, rfl⟩
      exact ⟨cells, read, rfl, hread, heq⟩
    · rintro ⟨cells, read, rfl, hread, heq⟩
      exact ⟨cells, rest, ⟨read, hread, heq⟩, rfl, rfl⟩
  · have hnone : readRight tokens = .ok (none, tokens) := by
      cases tokens with
      | nil => rfl
      | cons token tokens =>
        cases token with
        | opening => exact absurd rfl hhead
        | _ => rfl
    rw [hnone, or_iff_right]
    · simp only [Except.ok.injEq, Prod.mk.injEq]
      constructor
      · rintro ⟨rfl, rfl⟩
        exact ⟨rfl, rfl, hhead⟩
      · rintro ⟨rfl, rfl, -⟩
        exact ⟨rfl, rfl⟩
    · rintro ⟨cells, read, -, hread, rfl⟩
      exact hhead (head?_of_isPattern hread rest)

/-- **What tokens are read as a rule**: those that it is written as, where the reader takes the
words of a cell as that cell. -/
theorem ofTokens_eq_ok_iff {line : Nat} {rule : RuleDeclaration} :
    ofTokens line tokens = .ok rule ↔ rule.line = line ∧ rule.IsWritten IsTaken tokens := by
  constructor
  · intro h
    obtain ⟨⟨joins, headings, tokens₁⟩, hfront, h⟩ := bind_eq_ok_iff.mp h
    obtain ⟨tokens₂, hopening, h⟩ := bind_eq_ok_iff.mp h
    obtain ⟨⟨left, tokens₃⟩, hleft, h⟩ := bind_eq_ok_iff.mp h
    obtain ⟨tokens₄, harrow, h⟩ := bind_eq_ok_iff.mp h
    obtain ⟨⟨right, tokens₅⟩, hright, h⟩ := bind_eq_ok_iff.mp h
    obtain ⟨commands, hcommands, h⟩ := bind_eq_ok_iff.mp h
    obtain rfl := pure_eq_ok_iff.mp h
    obtain ⟨front, found, rfl, -, rfl, rfl, hfound⟩ := readFront_eq_ok_iff.mp hfront
    obtain rfl := readOpening_eq_ok_iff.mp hopening
    obtain ⟨leftTokens, hpattern, heq⟩ := readPattern_opened_iff.mp hleft
    obtain rfl := readArrow_eq_ok_iff.mp harrow
    obtain ⟨behind, rfl, hbehind⟩ := mapM_readCommand_eq_ok_iff.mp hcommands
    rw [heq]
    rcases readRight_eq_ok_iff.mp hright with
      ⟨cells, rightTokens, rfl, hcells, rfl⟩ | ⟨rfl, rfl, -⟩
    · exact ⟨rfl, front, leftTokens, rightTokens, behind, rfl, by simp, hfound, hpattern,
        hcells, hbehind⟩
    · exact ⟨rfl, front, leftTokens, [], behind, rfl, by simp, hfound, hpattern, rfl, hbehind⟩
  · rintro ⟨rfl, front, left, right, behind, rfl, hjoins, hheadings, hleft, hright, hcommands⟩
    obtain ⟨line, joins, headings, leftCells, rightCells, commands⟩ := rule
    dsimp only at hjoins hheadings hleft hright hcommands ⊢
    -- the words in front end at the bracket of the left pattern
    obtain ⟨tokens, htokens⟩ := List.head?_eq_some_iff.mp
      (head?_of_isPattern hleft (.arrow :: (right ++ behind.map .word)))
    have hjoins' : joins = (false || front.contains "+") := by
      rw [Bool.false_or, Bool.eq_iff_iff, hjoins, List.contains_iff_mem]
    have hright' : readRight (right ++ behind.map .word) = .ok (rightCells, behind.map .word) := by
      rw [readRight_eq_ok_iff]
      cases rightCells with
      | none =>
        obtain rfl : right = [] := hright
        -- the words behind do not begin with a bracket
        refine .inr ⟨rfl, rfl, ?_⟩
        cases behind <;> simp
      | some cells => exact .inl ⟨cells, right, rfl, hright, rfl⟩
    rw [htokens]
    refine bind_eq_ok_iff.mpr ⟨(joins, headings, .opening :: tokens), readFront_eq_ok_iff.mpr
      ⟨front, headings, rfl, by rintro next ⟨⟩; rfl, hjoins', rfl, hheadings⟩, ?_⟩
    refine bind_eq_ok_iff.mpr ⟨tokens, rfl, ?_⟩
    refine bind_eq_ok_iff.mpr ⟨(leftCells, .arrow :: (right ++ behind.map .word)),
      readPattern_opened_iff.mpr ⟨left, hleft, htokens.symm⟩, ?_⟩
    refine bind_eq_ok_iff.mpr ⟨right ++ behind.map .word, rfl, ?_⟩
    refine bind_eq_ok_iff.mpr ⟨(rightCells, behind.map .word), hright', ?_⟩
    exact bind_eq_ok_iff.mpr
      ⟨commands, mapM_readCommand_eq_ok_iff.mpr ⟨behind, rfl, hcommands⟩, rfl⟩

/-! ## How cells are written -/

section

variable {isCell isCell' : CellPattern → List String → Prop} {p : CellPattern → Prop}

theorem isPattern_and_iff {cells : List CellPattern} :
    IsPattern (fun cell row ↦ p cell ∧ isCell cell row) cells tokens ↔
      (∀ cell ∈ cells, p cell) ∧ IsPattern isCell cells tokens := by
  simp only [IsPattern, List.forall₂_and_left]
  constructor
  · rintro ⟨rows, hne, ⟨hp, hrows⟩, htokens⟩
    exact ⟨hp, rows, hne, hrows, htokens⟩
  · rintro ⟨hp, rows, hne, hrows, htokens⟩
    exact ⟨rows, hne, ⟨hp, hrows⟩, htokens⟩

theorem isRightPattern_and_iff {right : Option (List CellPattern)} :
    IsRightPattern (fun cell row ↦ p cell ∧ isCell cell row) right tokens ↔
      (∀ cell ∈ right.getD [], p cell) ∧ IsRightPattern isCell right tokens := by
  cases right with
  | none => simp [IsRightPattern]
  | some cells => exact isPattern_and_iff

variable {rule : RuleDeclaration}

/-- A property of every cell may be asked for where the cells are written. -/
theorem isWritten_and_iff :
    rule.IsWritten (fun cell row ↦ p cell ∧ isCell cell row) tokens ↔
      (∀ cell ∈ rule.cells, p cell) ∧ rule.IsWritten isCell tokens := by
  simp only [IsWritten, cells, List.forall_mem_append, isPattern_and_iff, isRightPattern_and_iff]
  constructor
  · rintro ⟨front, left, right, behind, htokens, hjoins, hheadings, ⟨hp, hleft⟩, ⟨hp', hright⟩, h⟩
    exact ⟨⟨hp, hp'⟩, front, left, right, behind, htokens, hjoins, hheadings, hleft, hright, h⟩
  · rintro ⟨⟨hp, hp'⟩, front, left, right, behind, htokens, hjoins, hheadings, hleft, hright, h⟩
    exact ⟨front, left, right, behind, htokens, hjoins, hheadings, ⟨hp, hleft⟩, ⟨hp', hright⟩, h⟩

theorem IsWritten.imp (h : rule.IsWritten isCell tokens)
    (himp : ∀ cell row, isCell cell row → isCell' cell row) : rule.IsWritten isCell' tokens := by
  have hpattern : ∀ {cells read}, IsPattern isCell cells read → IsPattern isCell' cells read := by
    rintro cells read ⟨rows, hne, hrows, hread⟩
    exact ⟨rows, hne, hrows.imp himp, hread⟩
  obtain ⟨front, left, right, behind, htokens, hjoins, hheadings, hleft, hright, hcommands⟩ := h
  refine ⟨front, left, right, behind, htokens, hjoins, hheadings, hpattern hleft, ?_, hcommands⟩
  cases hcells : rule.right with
  | none => rwa [hcells] at hright
  | some cells =>
    rw [hcells] at hright
    exact hpattern hright

theorem isTaken_iff {cell : CellPattern} {row : List String} :
    IsTaken cell row ↔ cell.IsClear ∧ cell.IsSpelled row := by
  rw [IsTaken, cellOf, readCell_eq_iff, CellPattern.isSpelled_iff, and_comm]

/-- A rule is taken from tokens if it is clear and spelled by them. -/
theorem isWritten_isTaken_iff : rule.IsWritten IsTaken tokens ↔
    (∀ cell ∈ rule.cells, cell.IsClear) ∧ rule.IsWritten CellPattern.IsSpelled tokens := by
  rw [← isWritten_and_iff]
  constructor
  · intro h
    exact h.imp fun cell row ↦ isTaken_iff.mp
  · intro h
    exact h.imp fun cell row ↦ isTaken_iff.mpr

theorem IsWritten.exists_isTaken (h : rule.IsWritten isCell tokens) (line : Nat) :
    ∃ taken : RuleDeclaration, taken.line = line ∧ taken.IsWritten IsTaken tokens := by
  have hpattern : ∀ {cells read}, IsPattern isCell cells read →
      ∃ cells', IsPattern IsTaken cells' read := by
    rintro cells read ⟨rows, hne, -, hread⟩
    exact ⟨rows.map cellOf, rows, hne, forall₂_isTaken_iff.mpr rfl, hread⟩
  obtain ⟨front, left, right, behind, htokens, hjoins, hheadings, hleft, hright, hcommands⟩ := h
  obtain ⟨leftCells, hleft⟩ := hpattern hleft
  cases hcells : rule.right with
  | none =>
    rw [hcells] at hright
    exact ⟨{ rule with line, left := leftCells, right := none }, rfl, front, left, right, behind,
      htokens, hjoins, hheadings, hleft, hright, hcommands⟩
  | some cells =>
    rw [hcells] at hright
    obtain ⟨rightCells, hright⟩ := hpattern hright
    exact ⟨{ rule with line, left := leftCells, right := some rightCells }, rfl, front, left, right,
      behind, htokens, hjoins, hheadings, hleft, hright, hcommands⟩

end

/-! ## Lines -/

theorem ofLine_eq_ok_iff {line : Line} {rule : RuleDeclaration} :
    ofLine line = .ok rule ↔ rule.line = line.number ∧
      rule.IsWritten CellPattern.IsSpelled (Token.ofText line.text) ∧
        ∀ cell ∈ rule.cells, cell.IsClear := by
  rw [ofLine, mapError_eq_ok_iff, ofTokens_eq_ok_iff, isWritten_isTaken_iff]
  exact and_congr_right fun _ ↦ and_comm

/-- **What rule lines are accepted.** The tokens of a line are all that is not blank in it, and its
words are words. A rule is read off a line if the tokens are those that it is written as and it is
clear; if they are not those of any rule, the line is refused with its number. -/
theorem ofLine_accepts (line : Line) :
    ((Token.ofText line.text).flatMap fun token ↦ token.text.toList) =
      (line.text.toList.filter fun c ↦ !Text.isBlank c) ∧
    (∀ token ∈ Token.ofText line.text, token.IsSound) ∧
    (∀ rule, ofLine line = .ok rule ↔ rule.line = line.number ∧
      rule.IsWritten CellPattern.IsSpelled (Token.ofText line.text) ∧
        ∀ cell ∈ rule.cells, cell.IsClear) ∧
    ((∃ fault, ofLine line = .error ⟨line.number, fault⟩) ↔
      ¬∃ rule : RuleDeclaration,
        rule.IsWritten CellPattern.IsSpelled (Token.ofText line.text)) := by
  obtain ⟨hlayout, hsound⟩ := Token.ofText_eq_iff.mp (Eq.refl (Token.ofText line.text))
  refine ⟨hlayout.flatMap_text hsound, hsound, fun rule ↦ ofLine_eq_ok_iff, ?_, ?_⟩
  · rintro ⟨fault, hfault⟩ ⟨rule, hrule⟩
    obtain ⟨taken, hline, htaken⟩ := hrule.exists_isTaken line.number
    have hread : ofLine line = .ok taken :=
      mapError_eq_ok_iff.mpr (ofTokens_eq_ok_iff.mpr ⟨hline, htaken⟩)
    exact absurd (hfault.symm.trans hread) nofun
  · intro hnone
    cases hread : ofTokens line.number (Token.ofText line.text) with
    | error fault => exact ⟨fault, by rw [ofLine, hread]; rfl⟩
    | ok rule =>
      have hwritten := (ofTokens_eq_ok_iff.mp hread).2
      exact absurd ⟨rule, (isWritten_isTaken_iff.mp hwritten).2⟩ hnone

end RuleDeclaration

end TilePuzzle
