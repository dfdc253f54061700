import Mathlib.Data.List.Induction
import TilePuzzle.Document.LegendDefinition
import TilePuzzle.Proofs.Blank
import TilePuzzle.Proofs.Outcome

/-!
# Legend lines are read by their grammar

A legend line is a symbol with blanks around it, the sign `=`, and a definition: names with a
conjunction between any two of them. Exactly the lines of this form are read whose conjunctions are
all `or` or all `and`.

Where a conjunction is of another kind than those before it, the line is said to mix them. Whatever
else is wrong, the line is malformed.

## Words and conjunctions

Words of an odd number can always be taken as names with a word between any two of them
(`exists_eq_spell`). What comes of them depends on the words in between alone: these join the names
in one way, or they are mixed, or one of them is no conjunction.
-/

namespace TilePuzzle

/-! ## Conjunctions -/

namespace Joining

/-- How names are joined by the words between them, in any ASCII case. -/
inductive IsOf : Joining → List String → Prop
  | alone : IsOf .alone []
  | either {words : List String} (ne_nil : words ≠ [])
      (same : ∀ word ∈ words, Text.sameWord "or" word = true) : IsOf .either words
  | together {words : List String} (ne_nil : words ≠ [])
      (same : ∀ word ∈ words, Text.sameWord "and" word = true) : IsOf .together words

/-- Among some words, a conjunction of another kind stands behind conjunctions of one kind. -/
def IsMixed (words : List String) : Prop :=
  ∃ front word back joining next, words = front ++ word :: back ∧ IsOf joining front ∧
    joining ≠ alone ∧ ofWord? word = some next ∧ next ≠ joining

variable {word : String} {words : List String} {joining next result : Joining}

theorem ofWord?_eq_some_iff : ofWord? word = some joining ↔
    joining = either ∧ Text.sameWord "or" word = true ∨
      joining = together ∧ Text.sameWord "and" word = true := by
  have hne : Text.fold "or" ≠ Text.fold "and" := by decide
  have hexclusive : ¬(Text.sameWord "or" word = true ∧ Text.sameWord "and" word = true) := by
    rintro ⟨hor, hand⟩
    exact hne (((Text.sameWord_iff _ _).mp hor).trans ((Text.sameWord_iff _ _).mp hand).symm)
  cases hor : Text.sameWord "or" word <;> cases hand : Text.sameWord "and" word <;>
    cases joining <;> simp_all [ofWord?]

theorem IsOf.eq_nil (h : IsOf Joining.alone words) : words = [] := by
  cases h
  rfl

theorem isOf_iff (hne : words ≠ []) :
    IsOf joining words ↔ ∀ word ∈ words, ofWord? word = some joining := by
  simp only [ofWord?_eq_some_iff]
  constructor
  · rintro (_ | ⟨-, hsame⟩ | ⟨-, hsame⟩) word hword
    · exact absurd rfl hne
    · exact .inl ⟨rfl, hsame word hword⟩
    · exact .inr ⟨rfl, hsame word hword⟩
  · intro h
    obtain ⟨first, hfirst⟩ := List.exists_mem_of_ne_nil words hne
    rcases h first hfirst with ⟨rfl, -⟩ | ⟨rfl, -⟩
    · exact .either hne fun word hword ↦ by simpa using h word hword
    · exact .together hne fun word hword ↦ by simpa using h word hword

/-- The joining once one more word is read between names. -/
def add (joining : Joining) (word : String) : Except SyntaxFault Joining :=
  match ofWord? word with
  | none => .error .malformedLegend
  | some next => joining.meet next

theorem add_eq_ok_iff : joining.add word = .ok result ↔
    ofWord? word = some result ∧ (joining = alone ∨ joining = result) := by
  rw [add]
  cases ofWord? word with
  | none => exact iff_of_false nofun nofun
  | some next =>
    rw [Option.some.injEq]
    dsimp only [meet]
    split
    · next hmeet =>
      exact ⟨fun h ↦ Except.ok.inj h ▸ ⟨rfl, hmeet⟩, fun h ↦ congrArg Except.ok h.1⟩
    · next hmeet =>
      refine iff_of_false nofun ?_
      rintro ⟨rfl, h⟩
      exact hmeet h

theorem add_eq_mixed_iff : joining.add word = .error .mixedLegendOperators ↔
    ∃ next, ofWord? word = some next ∧ joining ≠ alone ∧ next ≠ joining := by
  rw [add]
  cases ofWord? word with
  | none => exact iff_of_false nofun nofun
  | some next =>
    dsimp only [meet]
    split
    · next hmeet =>
      refine iff_of_false nofun ?_
      rintro ⟨other, hother, halone, hne⟩
      obtain rfl := Option.some.inj hother
      exact hmeet.elim halone hne.symm
    · next hmeet =>
      rw [not_or] at hmeet
      exact iff_of_true rfl ⟨next, rfl, hmeet.1, Ne.symm hmeet.2⟩

theorem eq_of_add_eq_error {fault : SyntaxFault} (h : joining.add word = .error fault) :
    fault = .malformedLegend ∧ ofWord? word = none ∨ fault = .mixedLegendOperators := by
  rw [add] at h
  split at h
  · next hword => exact .inl ⟨(Except.error.inj h).symm, hword⟩
  · rw [meet] at h
    split at h
    · cases h
    · exact .inr (Except.error.inj h).symm

/-- How the words between names join them. -/
def ofConjunctions (words : List String) : Except SyntaxFault Joining := words.foldlM add alone

theorem ofConjunctions_concat (words : List String) (word : String) :
    ofConjunctions (words ++ [word]) = ofConjunctions words >>= fun joining ↦ joining.add word := by
  rw [ofConjunctions, List.foldlM_append, ofConjunctions]
  simp only [List.foldlM_cons, List.foldlM_nil, bind_pure]

/-- A conjunction agrees with those before it, if there are any. -/
theorem isOf_concat_iff : IsOf result (words ++ [word]) ↔
    ∃ joining, IsOf joining words ∧ ofWord? word = some result ∧
      (joining = alone ∨ joining = result) := by
  rw [isOf_iff (List.concat_ne_nil word words), List.forall_mem_append,
    List.forall_mem_singleton]
  rcases List.eq_nil_or_concat words with rfl | ⟨front, last, rfl⟩
  · constructor
    · rintro ⟨-, hword⟩
      exact ⟨alone, .alone, hword, .inl rfl⟩
    · rintro ⟨joining, -, hword, -⟩
      exact ⟨nofun, hword⟩
  · rw [List.concat_eq_append]
    have hne : front ++ [last] ≠ [] := List.concat_ne_nil last front
    constructor
    · rintro ⟨hfront, hword⟩
      exact ⟨result, (isOf_iff hne).mpr hfront, hword, .inr rfl⟩
    · rintro ⟨joining, hjoining, hword, rfl | rfl⟩
      · exact absurd hjoining.eq_nil hne
      · exact ⟨(isOf_iff hne).mp hjoining, hword⟩

/-- **Conjunctions join names** just if all of them are `or`, or all of them are `and`. -/
theorem ofConjunctions_eq_ok_iff : ofConjunctions words = .ok result ↔ IsOf result words := by
  induction words using List.reverseRecOn generalizing result with
  | nil =>
    constructor
    · intro h
      cases h
      exact .alone
    · rintro (_ | ⟨hne, -⟩ | ⟨hne, -⟩)
      · rfl
      · exact absurd rfl hne
      · exact absurd rfl hne
  | append_singleton words word ih =>
    rw [ofConjunctions_concat, bind_eq_ok_iff, isOf_concat_iff]
    simp only [ih, add_eq_ok_iff]

/-- They are mixed at the first conjunction of another kind. -/
theorem ofConjunctions_eq_mixed_iff :
    ofConjunctions words = .error .mixedLegendOperators ↔ IsMixed words := by
  rw [ofConjunctions, foldlM_eq_error_iff]
  constructor
  · rintro ⟨front, word, back, joining, hwords, hfront, hword⟩
    obtain ⟨next, hnext, halone, hne⟩ := add_eq_mixed_iff.mp hword
    exact ⟨front, word, back, joining, next, hwords, ofConjunctions_eq_ok_iff.mp hfront, halone,
      hnext, hne⟩
  · rintro ⟨front, word, back, joining, next, hwords, hfront, halone, hnext, hne⟩
    exact ⟨front, word, back, joining, hwords, ofConjunctions_eq_ok_iff.mpr hfront,
      add_eq_mixed_iff.mpr ⟨next, hnext, halone, hne⟩⟩

theorem eq_of_ofConjunctions_eq_error {fault : SyntaxFault}
    (h : ofConjunctions words = .error fault) :
    fault = .mixedLegendOperators ∨
      fault = .malformedLegend ∧ ∃ word ∈ words, ofWord? word = none := by
  obtain ⟨front, word, back, joining, rfl, -, hword⟩ := foldlM_eq_error_iff.mp h
  rcases eq_of_add_eq_error hword with ⟨hfault, hnone⟩ | hfault
  · exact .inr ⟨hfault, word, List.mem_append_right _ List.mem_cons_self, hnone⟩
  · exact .inl hfault

theorem isMixed_of_mem (hall : ∀ word ∈ words, ofWord? word ≠ none)
    (hor : ∃ word ∈ words, Text.sameWord "or" word = true)
    (hand : ∃ word ∈ words, Text.sameWord "and" word = true) : IsMixed words := by
  obtain ⟨first, hfirst, hor⟩ := hor
  obtain ⟨second, hsecond, hand⟩ := hand
  rcases hresult : ofConjunctions words with fault | joining
  · rcases eq_of_ofConjunctions_eq_error hresult with rfl | ⟨-, word, hword, hnone⟩
    · exact ofConjunctions_eq_mixed_iff.mp hresult
    · exact absurd hnone (hall word hword)
  · have hsame := (isOf_iff (List.ne_nil_of_mem hfirst)).mp (ofConjunctions_eq_ok_iff.mp hresult)
    have heither := (hsame first hfirst).symm.trans (ofWord?_eq_some_iff.mpr (.inl ⟨rfl, hor⟩))
    have htogether := (hsame second hsecond).symm.trans (ofWord?_eq_some_iff.mpr (.inr ⟨rfl, hand⟩))
    cases heither.symm.trans htogether

end Joining

/-! ## Definitions -/

namespace LegendDefinition

/-- The words of a definition: a name, and then conjunctions, each with a name behind it. -/
def spell (name : String) (links : List (String × String)) : List String :=
  name :: links.flatMap fun (conjunction, next) ↦ [conjunction, next]

@[simp] theorem spell_cons (name conjunction next : String) (links : List (String × String)) :
    spell name ((conjunction, next) :: links) = name :: conjunction :: spell next links := rfl

theorem length_spell (name : String) (links : List (String × String)) :
    (spell name links).length % 2 = 1 := by
  induction links generalizing name with
  | nil => rfl
  | cons link links ih =>
    obtain ⟨conjunction, next⟩ := link
    rw [spell_cons, List.length_cons, List.length_cons, Nat.add_assoc, Nat.add_mod_right]
    exact ih next

/-- Words of an odd number can be read as names with conjunctions between them. -/
theorem exists_eq_spell {words : List String} (h : words.length % 2 = 1) :
    ∃ name links, words = spell name links := by
  match words with
  | [] => cases h
  | [name] => exact ⟨name, [], rfl⟩
  | name :: conjunction :: rest =>
    have hrest : rest.length % 2 = 1 := by
      rwa [List.length_cons, List.length_cons, Nat.add_assoc, Nat.add_mod_right] at h
    obtain ⟨next, links, rfl⟩ := exists_eq_spell hrest
    exact ⟨name, (conjunction, next) :: links, rfl⟩

theorem readTail_cons_cons (joining : Joining) (names : List String) (conjunction next : String)
    (words : List String) : readTail joining names (conjunction :: next :: words) =
      joining.add conjunction >>= fun joining ↦ readTail joining (next :: names) words := by
  rw [readTail, Joining.add]
  cases Joining.ofWord? conjunction <;> rfl

theorem readTail_eq (joining : Joining) (names : List String) (links : List (String × String)) :
    readTail joining names (links.flatMap fun (conjunction, next) ↦ [conjunction, next]) =
      ((links.map Prod.fst).foldlM Joining.add joining).map fun joining ↦
        (joining, names.reverse ++ links.map Prod.snd) := by
  induction links generalizing joining names with
  | nil =>
    rw [List.map_nil, List.map_nil, List.append_nil]
    rfl
  | cons link links ih =>
    obtain ⟨conjunction, next⟩ := link
    have hnames : names.reverse ++ next :: links.map Prod.snd =
        (next :: names).reverse ++ links.map Prod.snd := by
      rw [List.reverse_cons, List.append_assoc]
      rfl
    rw [List.flatMap_cons, List.map_cons, List.map_cons, List.foldlM_cons, hnames]
    refine (readTail_cons_cons joining names conjunction next _).trans ?_
    cases joining.add conjunction with
    | error fault => rfl
    | ok joining => exact ih joining (next :: names)

theorem readWords_spell (name : String) (links : List (String × String)) :
    readWords (spell name links) = (Joining.ofConjunctions (links.map Prod.fst)).map
      fun joining ↦ (joining, name :: links.map Prod.snd) := by
  have hodd : (spell name links).length % 2 ≠ 0 := by
    rw [length_spell]
    decide
  rw [readWords.eq_def, if_neg hodd]
  exact readTail_eq .alone [name] links

/-! ## Lines -/

/-- A text is a symbol with blanks around it, the sign `=`, which does not occur before, and some
words. The symbol is not empty and has no blanks. -/
structure IsCut (text symbol : String) (words : List String) : Prop where
  cut : ∃ before behind definition,
    text.toList = before ++ symbol.toList ++ behind ++ '=' :: definition ∧
      '=' ∉ before ++ symbol.toList ++ behind ∧ (∀ c ∈ before, Text.isBlank c = true) ∧
      (∀ c ∈ behind, Text.isBlank c = true) ∧ Text.words (.ofList definition) = words
  ne_empty : symbol ≠ ""
  solid : ∀ c ∈ symbol.toList, Text.isBlank c = false

variable {text symbol : String} {words : List String}

theorem cutAt_eq_iff {front back : List Char} :
    Text.cutAt (· == '=') text.toList = (front, some back) ↔
      text.toList = front ++ '=' :: back ∧ '=' ∉ front := by
  rw [Text.cutAt_eq_some_iff]
  constructor
  · rintro ⟨c, htext, hc, hfront⟩
    obtain rfl := eq_of_beq hc
    exact ⟨htext, fun hmem ↦ absurd (hfront _ hmem) (by decide)⟩
  · rintro ⟨htext, hfront⟩
    refine ⟨'=', htext, rfl, fun d hd ↦ beq_eq_false_iff_ne.mpr ?_⟩
    rintro rfl
    exact hfront hd

theorem IsCut.read_eq (h : IsCut text symbol words) :
    read text = (readWords words).map fun (joining, names) ↦ (symbol, joining, names) := by
  obtain ⟨before, behind, definition, htext, hsign, hbefore, hbehind, rfl⟩ := h.cut
  have htrim := Text.trimChars_append hbefore h.solid hbehind
  have hempty : symbol.toList.isEmpty = false := by
    rw [List.isEmpty_eq_false_iff]
    exact fun hnil ↦ h.ne_empty (String.toList_eq_nil_iff.mp hnil)
  have hsolid : symbol.toList.any Text.isBlank = false := by
    rw [List.any_eq_false]
    exact fun c hc ↦ Bool.eq_false_iff.mp (h.solid c hc)
  rw [read, cutAt_eq_iff.mpr ⟨htext, hsign⟩]
  dsimp only
  rw [htrim, hempty, hsolid, String.ofList_toList]
  rw [Text.words, String.toList_ofList]
  cases readWords ((Text.pieces Text.isBlank definition).map .ofList) <;> rfl

theorem read_of_not_isCut (h : ∀ symbol words, ¬IsCut text symbol words) :
    read text = .error .malformedLegend := by
  rw [read]
  split
  · rfl
  · next front definition hcut =>
    obtain ⟨htext, hsign⟩ := cutAt_eq_iff.mp hcut
    dsimp only
    split
    · rfl
    · next hsymbol =>
      rw [Bool.or_eq_true, not_or, List.isEmpty_iff, List.any_eq_true] at hsymbol
      obtain ⟨before, behind, hfront, hbefore, hbehind⟩ := Text.exists_eq_append_trimChars front
      refine absurd ⟨?_, ?_, ?_⟩
        (h (.ofList (Text.trimChars front)) (Text.words (.ofList definition)))
      · refine ⟨before, behind, definition, ?_, ?_, hbefore, hbehind, rfl⟩
        · rw [String.toList_ofList, ← hfront, htext]
        · rwa [String.toList_ofList, ← hfront]
      · intro hempty
        exact hsymbol.1 (by rw [← String.toList_ofList (l := Text.trimChars front), hempty]; rfl)
      · rw [String.toList_ofList]
        exact fun c hc ↦ Bool.eq_false_iff.mpr fun hblank ↦ hsymbol.2 ⟨c, hc, hblank⟩

theorem readWords_cases (words : List String) :
    (∃ name links, words = spell name links) ∨ readWords words = .error .malformedLegend := by
  by_cases hodd : words.length % 2 = 1
  · exact .inl (exists_eq_spell hodd)
  · refine .inr ?_
    rw [readWords.eq_def, if_pos (Nat.mod_two_ne_one.mp hodd)]

theorem readWords_eq_ok_iff {joining : Joining} {names : List String} :
    readWords words = .ok (joining, names) ↔ ∃ name links, words = spell name links ∧
      names = name :: links.map Prod.snd ∧ joining.IsOf (links.map Prod.fst) := by
  constructor
  · intro h
    rcases readWords_cases words with ⟨name, links, rfl⟩ | hmalformed
    · rw [readWords_spell, map_eq_ok_iff] at h
      obtain ⟨found, hfound, heq⟩ := h
      cases heq
      exact ⟨name, links, rfl, rfl, Joining.ofConjunctions_eq_ok_iff.mp hfound⟩
    · cases h.symm.trans hmalformed
  · rintro ⟨name, links, rfl, rfl, hjoining⟩
    rw [readWords_spell, Joining.ofConjunctions_eq_ok_iff.mpr hjoining]
    rfl

theorem readWords_eq_mixed_iff : readWords words = .error .mixedLegendOperators ↔
    ∃ name links, words = spell name links ∧ Joining.IsMixed (links.map Prod.fst) := by
  constructor
  · intro h
    rcases readWords_cases words with ⟨name, links, rfl⟩ | hmalformed
    · rw [readWords_spell, map_eq_error_iff] at h
      exact ⟨name, links, rfl, Joining.ofConjunctions_eq_mixed_iff.mp h⟩
    · cases h.symm.trans hmalformed
  · rintro ⟨name, links, rfl, hmixed⟩
    rw [readWords_spell, Joining.ofConjunctions_eq_mixed_iff.mpr hmixed]
    rfl

theorem eq_of_readWords_eq_error {fault : SyntaxFault} (h : readWords words = .error fault) :
    fault = .mixedLegendOperators ∨ fault = .malformedLegend := by
  rcases readWords_cases words with ⟨name, links, rfl⟩ | hmalformed
  · rw [readWords_spell, map_eq_error_iff] at h
    exact (Joining.eq_of_ofConjunctions_eq_error h).imp_right And.left
  · exact .inr (Except.error.inj (h.symm.trans hmalformed))

theorem read_cases (text : String) :
    (∃ symbol words, IsCut text symbol words ∧
      read text = (readWords words).map fun (joining, names) ↦ (symbol, joining, names)) ∨
    (∀ symbol words, ¬IsCut text symbol words) ∧ read text = .error .malformedLegend := by
  by_cases hcut : ∃ symbol words, IsCut text symbol words
  · obtain ⟨symbol, words, hcut⟩ := hcut
    exact .inl ⟨symbol, words, hcut, hcut.read_eq⟩
  · have hnone : ∀ symbol words, ¬IsCut text symbol words := fun symbol words h ↦
      hcut ⟨symbol, words, h⟩
    exact .inr ⟨hnone, read_of_not_isCut hnone⟩

theorem read_eq_ok_iff {joining : Joining} {names : List String} :
    read text = .ok (symbol, joining, names) ↔
      ∃ words, IsCut text symbol words ∧ readWords words = .ok (joining, names) := by
  constructor
  · intro h
    rcases read_cases text with ⟨found, words, hcut, hread⟩ | ⟨-, hread⟩
    · rw [h, eq_comm, map_eq_ok_iff] at hread
      obtain ⟨⟨joining', names'⟩, hwords, heq⟩ := hread
      cases heq
      exact ⟨words, hcut, hwords⟩
    · rw [h] at hread
      cases hread
  · rintro ⟨words, hcut, hwords⟩
    rw [hcut.read_eq, hwords]
    rfl

theorem read_eq_mixed_iff : read text = .error .mixedLegendOperators ↔
    ∃ symbol words, IsCut text symbol words ∧ readWords words = .error .mixedLegendOperators := by
  constructor
  · intro h
    rcases read_cases text with ⟨symbol, words, hcut, hread⟩ | ⟨-, hread⟩
    · rw [h, eq_comm, map_eq_error_iff] at hread
      exact ⟨symbol, words, hcut, hread⟩
    · rw [h] at hread
      cases hread
  · rintro ⟨symbol, words, hcut, hwords⟩
    rw [hcut.read_eq, hwords]
    rfl

theorem eq_of_read_eq_error {fault : SyntaxFault} (h : read text = .error fault) :
    fault = .mixedLegendOperators ∨ fault = .malformedLegend := by
  rcases read_cases text with ⟨symbol, words, -, hread⟩ | ⟨-, hread⟩
  · rw [h, eq_comm, map_eq_error_iff] at hread
    exact eq_of_readWords_eq_error hread
  · exact .inr (Except.error.inj (h.symm.trans hread))

theorem ofLine_eq_ok_iff {line : Line} {definition : LegendDefinition} :
    ofLine line = .ok definition ↔ definition.line = line.number ∧
      read line.text = .ok (definition.symbol, definition.joining, definition.names) := by
  rw [ofLine]
  split
  · next fault hread =>
    rw [hread]
    exact iff_of_false nofun fun h ↦ nomatch h.2
  · next symbol joining names hread =>
    rw [hread]
    obtain ⟨number, symbol', joining', names'⟩ := definition
    simp [eq_comm]

theorem ofLine_eq_error_iff {line : Line} {error : SyntaxError} : ofLine line = .error error ↔
    error.line = line.number ∧ read line.text = .error error.fault := by
  rw [ofLine]
  split
  · next fault hread =>
    rw [hread]
    obtain ⟨number, fault'⟩ := error
    simp [eq_comm]
  · next symbol joining names hread =>
    rw [hread]
    exact iff_of_false nofun fun h ↦ nomatch h.2

/-- **Legend lines are accepted by their grammar.** A line is read just if up to its first `=` there
is a symbol with blanks around it, and behind are names with conjunctions between any two, all of
them `or` or all of them `and`; these names are the definition, joined as the conjunctions say. If
both conjunctions occur, and nothing but conjunctions between names, they are reported to be mixed.
They are mixed just where one stands behind others of the other kind, and any other line that is not
read is malformed. -/
theorem ofLine_grammar (line : Line) :
    (∀ definition, ofLine line = .ok definition ↔ definition.line = line.number ∧
      ∃ name links, IsCut line.text definition.symbol (spell name links) ∧
        definition.names = name :: links.map Prod.snd ∧
        definition.joining.IsOf (links.map Prod.fst)) ∧
    (∀ symbol name links, IsCut line.text symbol (spell name links) →
      (∀ word ∈ links.map Prod.fst,
        Text.sameWord "or" word = true ∨ Text.sameWord "and" word = true) →
      (∃ word ∈ links.map Prod.fst, Text.sameWord "or" word = true) →
      (∃ word ∈ links.map Prod.fst, Text.sameWord "and" word = true) →
        ofLine line = .error ⟨line.number, .mixedLegendOperators⟩) ∧
    (ofLine line = .error ⟨line.number, .mixedLegendOperators⟩ ↔ ∃ symbol name links,
      IsCut line.text symbol (spell name links) ∧ Joining.IsMixed (links.map Prod.fst)) ∧
    ((∃ definition, ofLine line = .ok definition) ∨
      ofLine line = .error ⟨line.number, .mixedLegendOperators⟩ ∨
      ofLine line = .error ⟨line.number, .malformedLegend⟩) := by
  have hmixed : ofLine line = .error ⟨line.number, .mixedLegendOperators⟩ ↔ ∃ symbol name links,
      IsCut line.text symbol (spell name links) ∧ Joining.IsMixed (links.map Prod.fst) := by
    rw [ofLine_eq_error_iff, and_iff_right rfl, read_eq_mixed_iff]
    simp only [readWords_eq_mixed_iff]
    constructor
    · rintro ⟨symbol, words, hcut, name, links, rfl, hmixed⟩
      exact ⟨symbol, name, links, hcut, hmixed⟩
    · rintro ⟨symbol, name, links, hcut, hmixed⟩
      exact ⟨symbol, _, hcut, name, links, rfl, hmixed⟩
  refine ⟨fun definition ↦ ?_, fun symbol name links hcut hall hor hand ↦ ?_, hmixed, ?_⟩
  · rw [ofLine_eq_ok_iff, read_eq_ok_iff]
    simp only [readWords_eq_ok_iff]
    refine and_congr_right fun _ ↦ ⟨?_, ?_⟩
    · rintro ⟨words, hcut, name, links, rfl, hnames, hjoining⟩
      exact ⟨name, links, hcut, hnames, hjoining⟩
    · rintro ⟨name, links, hcut, hnames, hjoining⟩
      exact ⟨_, hcut, name, links, rfl, hnames, hjoining⟩
  · refine hmixed.mpr ⟨symbol, name, links, hcut, Joining.isMixed_of_mem ?_ hor hand⟩
    intro word hword hnone
    rcases hall word hword with hor | hand
    · cases hnone.symm.trans (Joining.ofWord?_eq_some_iff.mpr (.inl ⟨rfl, hor⟩))
    · cases hnone.symm.trans (Joining.ofWord?_eq_some_iff.mpr (.inr ⟨rfl, hand⟩))
  · rcases hline : ofLine line with ⟨number, fault⟩ | definition
    · obtain ⟨rfl, hfault⟩ := ofLine_eq_error_iff.mp hline
      rcases eq_of_read_eq_error hfault with rfl | rfl
      · exact .inr (.inl rfl)
      · exact .inr (.inr rfl)
    · exact .inl ⟨definition, rfl⟩

/-- On this line `or` comes after `AND`. -/
theorem ofLine_grammar_mixed :
    IsCut "X =Wall AND and  Or Ice" "X" (spell "Wall" [("AND", "and"), ("Or", "Ice")]) ∧
    (∀ word ∈ ["AND", "Or"], Text.sameWord "or" word = true ∨ Text.sameWord "and" word = true) ∧
    (∃ word ∈ ["AND", "Or"], Text.sameWord "or" word = true) ∧
    (∃ word ∈ ["AND", "Or"], Text.sameWord "and" word = true) ∧
    ofLine ⟨7, "X =Wall AND and  Or Ice"⟩ = .error ⟨7, .mixedLegendOperators⟩ := by
  have hcut : IsCut "X =Wall AND and  Or Ice" "X" (spell "Wall" [("AND", "and"), ("Or", "Ice")]) :=
    ⟨⟨[], [' '], "Wall AND and  Or Ice".toList, rfl, by decide, nofun,
      List.forall_mem_singleton.mpr rfl, by decide +kernel⟩, by decide,
      List.forall_mem_singleton.mpr rfl⟩
  have hall : ∀ word ∈ ["AND", "Or"],
      Text.sameWord "or" word = true ∨ Text.sameWord "and" word = true := by decide
  have hor : ∃ word ∈ ["AND", "Or"], Text.sameWord "or" word = true := by decide
  have hand : ∃ word ∈ ["AND", "Or"], Text.sameWord "and" word = true := by decide
  exact ⟨hcut, hall, hor, hand, (ofLine_grammar ⟨7, "X =Wall AND and  Or Ice"⟩).2.1 "X" "Wall"
    [("AND", "and"), ("Or", "Ice")] hcut hall hor hand⟩

end LegendDefinition

end TilePuzzle
