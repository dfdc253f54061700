import Mathlib.Data.List.Infix
import TilePuzzle.Proofs.Blank
import TilePuzzle.Proofs.RuleText.Rule

/-!
# Rules that are read as they are written

A rule is *plain* if none of its names can be mistaken: each makes up a word, does not begin with a
movement symbol, and is neither `no` nor a movement word. A plain rule may be laid out in many ways.
Keywords are written in any ASCII case, blanks are put in as one likes as long as they keep words
apart, and a movement symbol may be glued to the name behind it. All these texts are read as the
rule.

## What has to be shown

What is read off a line is known already: the clear rule that the tokens of the line spell. So
nothing is said of the readers here. A plain rule is clear, whatever it is written as spells it, and
the words that it is written as are words that the scanner leaves whole.
-/

namespace TilePuzzle

open Text (SameWords sameWord)

/-! ## Keywords are words -/

namespace Text

theorem sameWords_self (words : List String) : SameWords words words :=
  List.forall₂_same.mpr fun w _ ↦ (sameWord_iff w w).mpr rfl

end Text

namespace Token

theorem isWord_iff {cs : List Char} : IsWord cs ↔
    cs ≠ [] ∧ (cs.all fun c ↦ !Text.isBlank c && !(['[', ']', '|'].contains c)) = true ∧
      ¬['-', '>'] <:+: cs := by
  simp only [List.all_eq_true, Bool.and_eq_true, Bool.not_eq_true', List.contains_eq_mem,
    decide_eq_false_iff_not]
  constructor
  · rintro ⟨hne, hblank, hmem, harrow⟩
    exact ⟨hne, fun c hc ↦ ⟨hblank c hc, hmem c hc⟩, harrow⟩
  · rintro ⟨hne, hclean, harrow⟩
    exact ⟨hne, fun c hc ↦ (hclean c hc).1, fun c hc ↦ (hclean c hc).2, harrow⟩

instance (cs : List Char) : Decidable (IsWord cs) := decidable_of_iff' _ isWord_iff

/-- Whether characters make up a word does not depend on their case. -/
theorem IsWord.of_sameWord {keyword w : String} (h : sameWord keyword w = true)
    (hkeyword : IsWord (Text.foldChars keyword)) : IsWord w.toList := by
  rw [sameWord, beq_iff_eq] at h
  rw [h, Text.foldChars] at hkeyword
  constructor
  case ne_nil => exact fun hnil ↦ hkeyword.ne_nil (by rw [hnil]; rfl)
  case not_blank =>
    intro c hc
    refine eq_false_of_ne_true fun hblank ↦ ?_
    have hlower := hkeyword.not_blank _ (List.mem_map_of_mem hc)
    rw [Text.toLower_eq_self (.inl hblank), hblank] at hlower
    cases hlower
  case not_mem =>
    intro c hc hmem
    have hlower := hkeyword.not_mem _ (List.mem_map_of_mem hc)
    rw [Text.toLower_eq_self (.inr hmem)] at hlower
    exact hlower hmem
  case no_arrow => exact fun harrow ↦ hkeyword.no_arrow (harrow.map Char.toLower)

theorem isWord_of_sameWords {keywords words : List String} (h : SameWords keywords words)
    (hkeywords : ∀ keyword ∈ keywords, IsWord (Text.foldChars keyword)) :
    ∀ w ∈ words, IsWord w.toList := by
  intro w hw
  obtain ⟨keyword, hkeyword, hsame⟩ := h.exists_mem w hw
  exact (hkeywords keyword hkeyword).of_sameWord hsame

end Token

/-! ## Plain names -/

/-- The name of a term cannot be mistaken for something else. -/
structure PatternTerm.IsPlain (term : PatternTerm) : Prop where
  isWord : Token.IsWord term.name.toList
  head?_ne : ∀ symbol ∈ ['>', '<', '^'], term.name.toList.head? ≠ some symbol
  not_no : sameWord "no" term.name = false
  not_movement : MovementWord.ofWord? term.name = none

instance (term : PatternTerm) : Decidable term.IsPlain :=
  decidable_of_iff (Token.IsWord term.name.toList ∧
      (['>', '<', '^'].all fun symbol ↦ term.name.toList.head? != some symbol) = true ∧
      sameWord "no" term.name = false ∧ MovementWord.ofWord? term.name = none)
    ⟨fun ⟨hword, hhead, hno, hmovement⟩ ↦
        ⟨hword, fun symbol h ↦ bne_iff_ne.mp (List.all_eq_true.mp hhead symbol h), hno, hmovement⟩,
      fun h ↦ ⟨h.isWord, List.all_eq_true.mpr fun symbol hs ↦ bne_iff_ne.mpr (h.head?_ne symbol hs),
        h.not_no, h.not_movement⟩⟩

/-- No name of a cell can be mistaken. -/
def CellPattern.IsPlain (cell : CellPattern) : Prop := ∀ term ∈ cell, term.IsPlain

/-- The patterns have cells, and no name can be mistaken. -/
structure RuleDeclaration.IsPlain (rule : RuleDeclaration) : Prop where
  left_ne_nil : rule.left ≠ []
  right_ne : rule.right ≠ some []
  cells : ∀ cell ∈ rule.cells, cell.IsPlain

/-! ## Writing -/

/-- The words that a term may be written as: its keywords and its name, a movement symbol being
apart from the name or glued to it. -/
inductive PatternTerm.IsWritten (term : PatternTerm) : List String → Prop
  | apart {front : List String} (keywords : SameWords term.keywords front) :
      term.IsWritten (front ++ [term.name])
  | glued {front : List String} {symbol : String} (mem : symbol ∈ RuleDeclaration.symbols)
      (keywords : SameWords term.keywords (front ++ [symbol])) :
      term.IsWritten (front ++ [symbol ++ term.name])

/-- The words that a cell may be written as: those of its terms, one after the other. -/
def CellPattern.IsWritten (cell : CellPattern) (words : List String) : Prop :=
  ∃ parts, List.Forall₂ PatternTerm.IsWritten cell parts ∧ words = parts.flatten

/-- The texts that a rule may be written as. -/
def RuleDeclaration.IsText (rule : RuleDeclaration) (text : String) : Prop :=
  ∃ tokens, rule.IsWritten CellPattern.IsWritten tokens ∧ Token.IsLayout tokens text.toList

/-! ## Writing spells -/

namespace RuleDeclaration

theorem splitSymbol_of_fold {w : String} (h : splitSymbol (Text.fold w) = [Text.fold w]) :
    splitSymbol w = [w] := by
  refine splitSymbol_of_forall_ne fun symbol hsymbol rest hrest heq ↦ ?_
  have hlower : ∀ symbol ∈ symbols, symbol.toList.map Char.toLower = symbol.toList := by decide
  have hfold : Text.fold w = symbol ++ Text.fold rest := by
    rw [heq, ← String.toList_inj, Text.toList_fold, Text.foldChars, String.toList_append,
      List.map_append, String.toList_append, Text.toList_fold, hlower symbol hsymbol]
    rfl
  have hne : Text.fold rest ≠ "" := by
    intro hempty
    rw [← String.toList_inj, Text.toList_fold] at hempty
    exact hrest (String.toList_eq_nil_iff.mp (List.map_eq_nil_iff.mp hempty))
  rw [hfold, splitSymbol_append hsymbol hne] at h
  simp at h

theorem flatMap_splitSymbol_eq_self {words : List String} (h : ∀ w ∈ words, splitSymbol w = [w]) :
    words.flatMap splitSymbol = words := by
  induction words with
  | nil => rfl
  | cons w words ih =>
    rw [List.forall_mem_cons] at h
    rw [List.flatMap_cons, h.1, ih h.2]
    rfl

end RuleDeclaration

namespace PatternTerm

variable {term : PatternTerm} {front words : List String}

theorem isWord_of_mem_keywords {keyword : String} (h : keyword ∈ term.keywords) :
    Token.IsWord (Text.foldChars keyword) ∧
      RuleDeclaration.splitSymbol (Text.fold keyword) = [Text.fold keyword] := by
  have hno : Token.IsWord (Text.foldChars "no") ∧
      RuleDeclaration.splitSymbol (Text.fold "no") = [Text.fold "no"] := by decide
  have hmovement : ∀ movement ∈ MovementWord.all, Token.IsWord (Text.foldChars movement.word) ∧
      RuleDeclaration.splitSymbol (Text.fold movement.word) = [Text.fold movement.word] := by
    decide
  rw [keywords, List.mem_append, Option.mem_toList, Option.map_eq_some_iff] at h
  rcases h with h | ⟨movement, -, rfl⟩
  · split at h
    · rwa [List.mem_singleton.mp h]
    · cases h
  · exact hmovement movement movement.mem_all

theorem splitSymbol_of_sameWords (h : SameWords term.keywords front) :
    ∀ w ∈ front, RuleDeclaration.splitSymbol w = [w] := by
  intro w hw
  obtain ⟨keyword, hkeyword, hsame⟩ := h.exists_mem w hw
  have hwhole := (isWord_of_mem_keywords hkeyword).2
  rw [(Text.sameWord_iff _ _).mp hsame] at hwhole
  exact RuleDeclaration.splitSymbol_of_fold hwhole

theorem isWord_of_keywords (h : SameWords term.keywords front) :
    ∀ w ∈ front, Token.IsWord w.toList :=
  Token.isWord_of_sameWords h fun _ hkeyword ↦ (isWord_of_mem_keywords hkeyword).1

theorem IsPlain.splitSymbol_name (h : term.IsPlain) :
    RuleDeclaration.splitSymbol term.name = [term.name] := by
  refine RuleDeclaration.splitSymbol_of_forall_ne fun symbol hsymbol rest _ heq ↦ ?_
  obtain ⟨c, hc, rfl⟩ := RuleDeclaration.exists_of_mem_symbols hsymbol
  refine h.head?_ne c hc ?_
  simp [heq]

/-- A movement symbol may be glued to a plain name. -/
theorem IsPlain.isWord_append (h : term.IsPlain) {symbol : String}
    (hsymbol : symbol ∈ RuleDeclaration.symbols) : Token.IsWord (symbol ++ term.name).toList := by
  obtain ⟨c, hc, rfl⟩ := RuleDeclaration.exists_of_mem_symbols hsymbol
  have hclean : ∀ c ∈ ['>', '<', '^'],
      Text.isBlank c = false ∧ c ∉ ['[', ']', '|'] ∧ c ≠ '-' := by
    rw [List.forall_mem_cons, List.forall_mem_cons, List.forall_mem_singleton]
    decide
  obtain ⟨hblank, hmem, hdash⟩ := hclean c hc
  rw [String.toList_append, String.toList_ofList, List.singleton_append]
  constructor
  case ne_nil => exact List.cons_ne_nil _ _
  case not_blank => exact List.forall_mem_cons.mpr ⟨hblank, h.isWord.not_blank⟩
  case not_mem => exact List.forall_mem_cons.mpr ⟨hmem, h.isWord.not_mem⟩
  case no_arrow =>
    rw [List.infix_cons_iff]
    rintro (hfront | hbehind)
    · exact hdash (List.cons_prefix_cons.mp hfront).1.symm
    · exact h.isWord.no_arrow hbehind

theorem IsWritten.isSpelled (h : term.IsWritten words) (hterm : term.IsPlain) :
    term.IsSpelled (words.flatMap RuleDeclaration.splitSymbol) := by
  cases h with
  | @apart front hfront =>
    refine ⟨front, hfront, ?_⟩
    have hwhole :=
      RuleDeclaration.flatMap_splitSymbol_eq_self (splitSymbol_of_sameWords hfront)
    simp [hwhole, hterm.splitSymbol_name]
  | @glued front symbol hsymbol hfront =>
    refine ⟨front ++ [symbol], hfront, ?_⟩
    have hwhole := RuleDeclaration.flatMap_splitSymbol_eq_self fun w hw ↦
      splitSymbol_of_sameWords hfront w (List.mem_append_left _ hw)
    have hne : term.name ≠ "" := fun hempty ↦
      hterm.isWord.ne_nil (String.toList_eq_nil_iff.mpr hempty)
    simp [hwhole, RuleDeclaration.splitSymbol_append hsymbol hne]

theorem IsWritten.isWord (h : term.IsWritten words) (hterm : term.IsPlain) :
    ∀ w ∈ words, Token.IsWord w.toList := by
  cases h with
  | apart hfront =>
    rw [List.forall_mem_append, List.forall_mem_singleton]
    exact ⟨isWord_of_keywords hfront, hterm.isWord⟩
  | glued hsymbol hfront =>
    rw [List.forall_mem_append, List.forall_mem_singleton]
    refine ⟨fun w hw ↦ ?_, hterm.isWord_append hsymbol⟩
    exact isWord_of_keywords hfront w (List.mem_append_left _ hw)

end PatternTerm

namespace CellPattern

variable {cell : CellPattern} {row : List String}

theorem IsWritten.isSpelled (h : cell.IsWritten row) (hcell : cell.IsPlain) :
    cell.IsSpelled row := by
  obtain ⟨parts, hparts, rfl⟩ := h
  rw [isSpelled_iff]
  induction hparts with
  | nil => exact isRead_nil_iff.mpr rfl
  | @cons term part cell parts hpart _ ih =>
    obtain ⟨hterm, hcell⟩ := List.forall_mem_cons.mp hcell
    rw [List.flatten_cons, List.flatMap_append]
    exact isRead_cons_iff.mpr ⟨_, _, hpart.isSpelled hterm, ih hcell, rfl⟩

theorem IsWritten.isWord (h : cell.IsWritten row) (hcell : cell.IsPlain) :
    ∀ w ∈ row, Token.IsWord w.toList := by
  obtain ⟨parts, hparts, rfl⟩ := h
  induction hparts with
  | nil => exact fun _ hnil ↦ absurd hnil List.not_mem_nil
  | @cons term part cell parts hpart _ ih =>
    obtain ⟨hterm, hcell⟩ := List.forall_mem_cons.mp hcell
    rw [List.flatten_cons, List.forall_mem_append]
    exact ⟨hpart.isWord hterm, ih hcell⟩

/-- The words of a cell, all of them apart. -/
def words (cell : CellPattern) : List String :=
  (cell.map fun term ↦ term.keywords ++ [term.name]).flatten

theorem isWritten_words (cell : CellPattern) : cell.IsWritten cell.words := by
  refine ⟨_, ?_, rfl⟩
  rw [List.forall₂_map_right_iff, List.forall₂_same]
  exact fun term _ ↦ .apart (Text.sameWords_self _)

theorem IsPlain.isClear (h : cell.IsPlain) : cell.IsClear := by
  intro term hterm _
  have hplain := h term (List.mem_of_mem_dropLast hterm)
  exact ⟨hplain.not_movement, fun _ ↦ hplain.not_no⟩

end CellPattern

/-! ## Texts of rules -/

namespace Token

theorem exists_isLayout (tokens : List Token) : ∃ cs, IsLayout tokens cs := by
  -- a blank in front of every token keeps the words apart
  suffices h : ∃ cs, IsLayout tokens cs ∧
      (tokens ≠ [] → ∃ c ∈ cs.head?, Text.isBlank c = true) by
    obtain ⟨cs, hlayout, -⟩ := h
    exact ⟨cs, hlayout⟩
  induction tokens with
  | nil => exact ⟨[], .nil nofun, fun h ↦ absurd rfl h⟩
  | cons token tokens ih =>
    obtain ⟨rest, hlayout, hblank⟩ := ih
    refine ⟨[' '] ++ (token.text.toList ++ rest), .cons ?_ hlayout fun _ ↦ ?_, fun _ ↦ ?_⟩
    · exact List.forall_mem_singleton.mpr (by decide)
    · rintro ⟨next, hnext, -⟩
      exact hblank (List.ne_nil_of_mem (List.mem_of_mem_head? hnext))
    · exact ⟨' ', rfl, rfl⟩

theorem isSound_map_word {words : List String} (h : ∀ w ∈ words, IsWord w.toList) :
    ∀ token ∈ words.map word, token.IsSound := List.forall_mem_map.mpr h

theorem isSound_ofRows {rows : List (List String)} (hne : rows ≠ [])
    (h : ∀ row ∈ rows, ∀ w ∈ row, IsWord w.toList) : ∀ token ∈ ofRows rows, token.IsSound := by
  obtain ⟨row, rows, rfl⟩ := List.exists_cons_of_ne_nil hne
  rw [List.forall_mem_cons] at h
  rw [RuleDeclaration.ofRows_cons, List.forall_mem_cons, List.forall_mem_append,
    List.forall_mem_append, List.forall_mem_singleton, RuleDeclaration.moreRows]
  refine ⟨trivial, isSound_map_word h.1, fun token htoken ↦ ?_, trivial⟩
  obtain ⟨next, hnext, htoken⟩ := List.mem_flatMap.mp htoken
  rcases List.mem_cons.mp htoken with rfl | htoken
  · trivial
  · exact isSound_map_word (h.2 next hnext) token htoken

end Token

namespace RuleDeclaration

variable {rule : RuleDeclaration} {tokens : List Token}

theorem isSound_of_isPattern {cells : List CellPattern}
    (h : IsPattern (fun _ row ↦ ∀ w ∈ row, Token.IsWord w.toList) cells tokens) :
    ∀ token ∈ tokens, token.IsSound := by
  obtain ⟨rows, hne, hrows, rfl⟩ := h
  refine Token.isSound_ofRows hne ?_
  clear hne
  induction hrows with
  | nil => exact fun _ hnil ↦ absurd hnil List.not_mem_nil
  | cons hrow _ ih => exact List.forall_mem_cons.mpr ⟨hrow, ih⟩

theorem IsWritten.isSound
    (h : rule.IsWritten (fun _ row ↦ ∀ w ∈ row, Token.IsWord w.toList) tokens) :
    ∀ token ∈ tokens, token.IsSound := by
  have hheading : ∀ heading ∈ Heading.all, Token.IsWord (Text.foldChars heading.word) := by decide
  have hcommand : ∀ command ∈ RuleCommand.all, Token.IsWord (Text.foldChars command.word) := by
    decide
  obtain ⟨front, left, right, behind, rfl, -, hheadings, hleft, hright, hcommands⟩ := h
  have hfront : ∀ w ∈ front, Token.IsWord w.toList := by
    intro w hw
    by_cases hplus : w = "+"
    · rw [hplus]
      decide
    · refine Token.isWord_of_sameWords hheadings ?_ w (List.mem_filter.mpr ⟨hw, ?_⟩)
      · exact List.forall_mem_map.mpr fun heading _ ↦ hheading heading heading.mem_all
      · exact decide_eq_true hplus
  have hbehind : ∀ w ∈ behind, Token.IsWord w.toList := by
    refine Token.isWord_of_sameWords hcommands (List.forall_mem_map.mpr fun command _ ↦ ?_)
    exact hcommand command command.mem_all
  have hrightSound : ∀ token ∈ right, token.IsSound := by
    cases hcells : rule.right with
    | none =>
      rw [hcells] at hright
      rw [show right = [] from hright]
      exact fun _ hnil ↦ absurd hnil List.not_mem_nil
    | some cells =>
      rw [hcells] at hright
      exact isSound_of_isPattern hright
  simp only [List.forall_mem_append, List.forall_mem_cons]
  exact ⟨Token.isSound_map_word hfront, isSound_of_isPattern hleft, trivial, hrightSound,
    Token.isSound_map_word hbehind⟩

theorem exists_isPattern {cells : List CellPattern} (h : cells ≠ []) :
    ∃ read, IsPattern CellPattern.IsWritten cells read := by
  refine ⟨_, cells.map CellPattern.words, mt List.map_eq_nil_iff.mp h, ?_, rfl⟩
  rw [List.forall₂_map_right_iff, List.forall₂_same]
  exact fun cell _ ↦ cell.isWritten_words

theorem exists_isWritten (hleft : rule.left ≠ []) (hright : rule.right ≠ some []) :
    ∃ tokens, rule.IsWritten CellPattern.IsWritten tokens := by
  have hplus : ∀ heading ∈ Heading.all, heading.word ≠ "+" := by decide
  obtain ⟨left, hleft⟩ := exists_isPattern hleft
  obtain ⟨right, hright⟩ : ∃ right, IsRightPattern CellPattern.IsWritten rule.right right := by
    cases hcells : rule.right with
    | none => exact ⟨[], rfl⟩
    | some cells => exact exists_isPattern fun hnil ↦ hright (hnil ▸ hcells)
  have hheadings : ∀ w ∈ rule.headings.map Heading.word, w ≠ "+" :=
    List.forall_mem_map.mpr fun heading _ ↦ hplus heading heading.mem_all
  have hfilter : (rule.headings.map Heading.word).filter (· ≠ "+") =
      rule.headings.map Heading.word :=
    List.filter_eq_self.mpr fun w hw ↦ decide_eq_true (hheadings w hw)
  have hnot : "+" ∉ rule.headings.map Heading.word := fun hmem ↦ hheadings _ hmem rfl
  refine ⟨_, (if rule.joinsPrevious then ["+"] else []) ++ rule.headings.map Heading.word, left,
    right, rule.commands.map RuleCommand.word, rfl, ?_, ?_, hleft, hright, Text.sameWords_self _⟩
  · rw [List.mem_append, or_iff_left hnot]
    cases rule.joinsPrevious <;> simp
  · rw [List.filter_append, hfilter]
    cases rule.joinsPrevious <;> exact Text.sameWords_self _

/-- **Plain rules are read as they are written.** Such a rule can be written as a text, and each
text that it may be written as is read as this rule on its line. -/
theorem IsPlain.ofLine_eq_ok (h : rule.IsPlain) :
    (∃ text, rule.IsText text) ∧
      ∀ text, rule.IsText text → ofLine ⟨rule.line, text⟩ = .ok rule := by
  constructor
  · obtain ⟨tokens, htokens⟩ := exists_isWritten h.left_ne_nil h.right_ne
    obtain ⟨cs, hcs⟩ := Token.exists_isLayout tokens
    exact ⟨.ofList cs, tokens, htokens, String.toList_ofList.symm ▸ hcs⟩
  · rintro text ⟨tokens, htokens, hlayout⟩
    have hplain := isWritten_and_iff.mpr ⟨h.cells, htokens⟩
    have hsound := (hplain.imp fun cell row hcell ↦ hcell.2.isWord hcell.1).isSound
    obtain rfl := Token.ofText_eq_iff.mpr ⟨hlayout, hsound⟩
    have hspelled := hplain.imp fun cell row hcell ↦ hcell.2.isSpelled hcell.1
    exact ofLine_eq_ok_iff.mpr ⟨rfl, hspelled, fun cell hcell ↦ (h.cells cell hcell).isClear⟩

/-! ## A rule in little space -/

/-- To push: a player who moves against a crate takes it along, unless there is a wall. -/
def pushing : RuleDeclaration where
  line := 7
  joinsPrevious := true
  headings := [.horizontal]
  left := [[⟨false, some (.relative .ahead), "Player"⟩],
    [⟨false, none, "Crate"⟩, ⟨true, none, "Wall"⟩]]
  right := some [[⟨false, some (.relative .ahead), "Player"⟩],
    [⟨false, some (.absolute (.toward .right)), "Crate"⟩]]
  commands := [.cancel]

/-- The rule written with hardly any blanks, and some keywords in upper case. -/
def pushingText : String := "+ HORIZONTAL[>Player|Crate NO Wall]->[> Player|Right Crate]Cancel"

theorem isPlain_pushing : pushing.IsPlain where
  left_ne_nil := by decide
  right_ne := by decide
  cells := by
    have hterms : ∀ cell ∈ pushing.cells, ∀ term ∈ cell, term.IsPlain := by decide
    exact hterms

theorem isText_pushing : pushing.IsText pushingText := by
  have hahead : PatternTerm.IsWritten ⟨false, some (.relative .ahead), "Player"⟩ [">Player"] :=
    @PatternTerm.IsWritten.glued _ [] ">" (by decide) (.cons (by decide) .nil)
  have hahead' : PatternTerm.IsWritten ⟨false, some (.relative .ahead), "Player"⟩ [">", "Player"] :=
    @PatternTerm.IsWritten.apart _ [">"] (.cons (by decide) .nil)
  have hcrate : PatternTerm.IsWritten ⟨false, none, "Crate"⟩ ["Crate"] :=
    @PatternTerm.IsWritten.apart _ [] .nil
  have hcrate' : PatternTerm.IsWritten ⟨false, some (.absolute (.toward .right)), "Crate"⟩
      ["Right", "Crate"] := @PatternTerm.IsWritten.apart _ ["Right"] (.cons (by decide) .nil)
  have hwall : PatternTerm.IsWritten ⟨true, none, "Wall"⟩ ["NO", "Wall"] :=
    @PatternTerm.IsWritten.apart _ ["NO"] (.cons (by decide) .nil)
  have hleft : IsPattern CellPattern.IsWritten pushing.left
      (Token.ofRows [[">Player"], ["Crate", "NO", "Wall"]]) :=
    ⟨_, by decide, .cons ⟨_, .cons hahead .nil, rfl⟩
      (.cons ⟨_, .cons hcrate (.cons hwall .nil), rfl⟩ .nil), rfl⟩
  have hright : IsRightPattern CellPattern.IsWritten pushing.right
      (Token.ofRows [[">", "Player"], ["Right", "Crate"]]) :=
    ⟨_, by decide, .cons ⟨_, .cons hahead' .nil, rfl⟩
      (.cons ⟨_, .cons hcrate' .nil, rfl⟩ .nil), rfl⟩
  exact ⟨_, ⟨["+", "HORIZONTAL"], _, _, ["Cancel"], rfl, by decide, .cons (by decide) .nil, hleft,
    hright, .cons (by decide) .nil⟩, (Token.ofText_eq_iff.mp (by decide)).1⟩

/-- The rule is read as it is written. -/
theorem IsPlain.ofLine_eq_ok_pushing :
    pushing.IsPlain ∧ pushing.IsText pushingText ∧ ofLine ⟨7, pushingText⟩ = .ok pushing :=
  ⟨isPlain_pushing, isText_pushing, (IsPlain.ofLine_eq_ok isPlain_pushing).2 _ isText_pushing⟩

end RuleDeclaration

end TilePuzzle
