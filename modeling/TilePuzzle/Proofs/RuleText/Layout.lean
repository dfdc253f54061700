import TilePuzzle.Document.RuleDeclaration.Token

/-!
# Tokens and their layout

A text *lays out* tokens if it has what they are written as, one after the other, with blanks in
front of them and behind the last. The blanks may be missing wherever no two words meet. A word that
can be told from the other tokens has no blank, bracket, bar or arrow in it.

The tokens of a text are the tokens of such words that it lays out, and there is only one way to
choose them.

## Two inductions

Soundness follows the scanner, which keeps the word that it is reading (`IsReading`). An arrow has
two characters, so the invariant looks one character ahead.

Completeness follows the layout: a token is passed together with the blanks in front of it, and a
word ends where the next token stops it (`Stops`).
-/

namespace TilePuzzle.Token

/-! ## Words -/

/-- Characters that make up a word. -/
structure IsWord (cs : List Char) : Prop where
  ne_nil : cs ≠ []
  not_blank : ∀ c ∈ cs, Text.isBlank c = false
  not_mem : ∀ c ∈ cs, c ∉ ['[', ']', '|']
  no_arrow : ¬['-', '>'] <:+: cs

/-- The text of a token that is a word makes up one; of the other tokens nothing is asked. -/
def IsSound : Token → Prop
  | word text => IsWord text.toList
  | _ => True

/-- Whether the token is a word. -/
def isWord : Token → Bool
  | word _ => true
  | _ => false

/-! ## Layout -/

/-- A text lays out tokens. Each is written behind some blanks, and a word that follows a word is
written behind at least one. -/
inductive IsLayout : List Token → List Char → Prop
  | nil {gap : List Char} (blank : ∀ c ∈ gap, Text.isBlank c = true) : IsLayout [] gap
  | cons {gap rest : List Char} {token : Token} {tokens : List Token}
      (blank : ∀ c ∈ gap, Text.isBlank c = true) (layout : IsLayout tokens rest)
      (apart : token.isWord = true → (∃ next ∈ tokens.head?, next.isWord = true) →
        ∃ c ∈ rest.head?, Text.isBlank c = true) :
      IsLayout (token :: tokens) (gap ++ (token.text.toList ++ rest))

theorem IsLayout.cons_blank {tokens : List Token} {c : Char} {cs : List Char}
    (h : IsLayout tokens cs) (hc : Text.isBlank c = true) : IsLayout tokens (c :: cs) := by
  cases h with
  | nil hblank => exact .nil (List.forall_mem_cons.mpr ⟨hc, hblank⟩)
  | cons hblank hrest hapart => exact .cons (List.forall_mem_cons.mpr ⟨hc, hblank⟩) hrest hapart

theorem IsLayout.flatMap_text {tokens : List Token} {cs : List Char} (h : IsLayout tokens cs)
    (hsound : ∀ token ∈ tokens, token.IsSound) :
    (tokens.flatMap fun token ↦ token.text.toList) = cs.filter fun c ↦ !Text.isBlank c := by
  have hgap : ∀ {gap : List Char}, (∀ c ∈ gap, Text.isBlank c = true) →
      (gap.filter fun c ↦ !Text.isBlank c) = [] := by
    intro gap hblank
    refine List.filter_eq_nil_iff.mpr fun c hc ↦ ?_
    simp [hblank c hc]
  induction h with
  | nil hblank => rw [List.flatMap_nil, hgap hblank]
  | @cons gap rest token tokens hblank _ _ ih =>
    rw [List.forall_mem_cons] at hsound
    have htext : (token.text.toList.filter fun c ↦ !Text.isBlank c) = token.text.toList := by
      cases token with
      | word text =>
        refine List.filter_eq_self.mpr fun c hc ↦ ?_
        simp [hsound.1.not_blank c hc]
      | opening => decide
      | closing => decide
      | bar => decide
      | arrow => decide
    simp [ih hsound.2, hgap hblank, htext]

/-- An arrow at the end of some characters is made by the last two. -/
theorem arrow_infix_concat {w : List Char} {c : Char} :
    ['-', '>'] <:+: w ++ [c] ↔ ['-', '>'] <:+: w ∨ (w.getLast? = some '-' ∧ c = '>') := by
  have hsuffix : ['-', '>'] <:+ w ++ [c] ↔ w.getLast? = some '-' ∧ c = '>' := by
    rw [List.suffix_concat_iff, or_iff_right (by simp), List.getLast?_eq_some_iff]
    constructor
    · rintro ⟨front, heq, before, hbefore⟩
      obtain ⟨rfl, hc⟩ := List.append_inj' (show ['-'] ++ ['>'] = front ++ [c] from heq) rfl
      exact ⟨⟨before, hbefore.symm⟩, (List.cons.inj hc).1.symm⟩
    · rintro ⟨⟨before, hbefore⟩, rfl⟩
      exact ⟨['-'], rfl, before, hbefore.symm⟩
  rw [List.infix_concat_iff, or_comm, hsuffix]

/-! ## Steps of the scanner -/

theorem ofPunctuation?_eq_none_iff {c : Char} :
    ofPunctuation? c = none ↔ c ∉ ['[', ']', '|'] := by
  simp [ofPunctuation?]
  grind

variable {c : Char} {cs current : List Char} {tokens : List Token}

theorem scan_blank (h : Text.isBlank c = true) :
    scan (c :: cs) current tokens = scan cs [] (endWord current tokens) := by
  have harrow : ∀ rest, c = '-' → cs = '>' :: rest → False := by
    rintro rest rfl -
    exact absurd h (by decide)
  have hpunctuation : ofPunctuation? c = none := by
    refine ofPunctuation?_eq_none_iff.mpr fun hmem ↦ ?_
    have hnone : (['[', ']', '|'].any Text.isBlank) = false := by decide
    exact List.any_eq_false.mp hnone c hmem h
  rw [scan.eq_3 _ _ _ _ harrow, hpunctuation]
  exact if_pos h

theorem scan_text {token : Token} (h : token.isWord = false) :
    scan (token.text.toList ++ cs) current tokens =
      scan cs [] (token :: endWord current tokens) := by
  cases token with
  | word text => cases h
  | opening => rfl
  | closing => rfl
  | bar => rfl
  | arrow => rfl

theorem scan_cons (hblank : Text.isBlank c = false) (hmem : c ∉ ['[', ']', '|'])
    (harrow : c = '-' → cs.head? ≠ some '>') :
    scan (c :: cs) current tokens = scan cs (c :: current) tokens := by
  have harrow' : ∀ rest, c = '-' → cs = '>' :: rest → False := by
    rintro rest hc rfl
    exact harrow hc rfl
  rw [scan.eq_3 _ _ _ _ harrow', ofPunctuation?_eq_none_iff.mpr hmem]
  exact if_neg (Bool.eq_false_iff.mp hblank)

/-! ## Texts that lay out tokens -/

theorem scan_gap {gap : List Char} (hblank : ∀ c ∈ gap, Text.isBlank c = true) :
    scan (gap ++ cs) [] tokens = scan cs [] tokens := by
  induction gap with
  | nil => rfl
  | cons c gap ih =>
    rw [List.forall_mem_cons] at hblank
    rw [List.cons_append, scan_blank hblank.1]
    exact ih hblank.2

/-- The characters of a word are read one by one, if no arrow begins at its end. -/
theorem scan_word {w : List Char} (hblank : ∀ c ∈ w, Text.isBlank c = false)
    (hmem : ∀ c ∈ w, c ∉ ['[', ']', '|']) (harrow : ¬['-', '>'] <:+: w ++ cs.take 1) :
    scan (w ++ cs) current tokens = scan cs (w.reverse ++ current) tokens := by
  induction w generalizing current with
  | nil => rfl
  | cons c w ih =>
    rw [List.forall_mem_cons] at hblank hmem
    have hnext : c = '-' → (w ++ cs).head? ≠ some '>' := by
      rintro rfl hhead
      apply harrow
      cases w with
      | nil =>
        cases cs with
        | nil => cases hhead
        | cons d cs =>
          obtain rfl := Option.some.inj hhead
          exact List.infix_rfl
      | cons d w =>
        obtain rfl := Option.some.inj hhead
        exact ⟨[], w ++ cs.take 1, rfl⟩
    rw [List.cons_append, scan_cons hblank.1 hmem.1 hnext,
      ih hblank.2 hmem.2 fun h ↦ harrow (h.trans (List.infix_cons List.infix_rfl)),
      List.reverse_cons, List.append_assoc]
    rfl

/-- A word ends where a text ends or goes on with a blank or with a token that is no word. -/
def Stops (cs : List Char) : Prop :=
  cs = [] ∨ (∃ c ∈ cs.head?, Text.isBlank c = true) ∨
    ∃ (token : Token) (rest : List Char), token.isWord = false ∧ cs = token.text.toList ++ rest

theorem IsLayout.stops (h : IsLayout tokens cs)
    (hapart : (∃ next ∈ tokens.head?, next.isWord = true) →
      ∃ c ∈ cs.head?, Text.isBlank c = true) : Stops cs := by
  cases h with
  | nil hblank =>
    cases cs with
    | nil => exact .inl rfl
    | cons c cs => exact .inr (.inl ⟨c, rfl, hblank c List.mem_cons_self⟩)
  | @cons gap rest token tokens hblank hrest _ =>
    cases gap with
    | cons c gap => exact .inr (.inl ⟨c, rfl, hblank c List.mem_cons_self⟩)
    | nil =>
      cases hword : token.isWord with
      | true => exact .inr (.inl (hapart ⟨token, rfl, hword⟩))
      | false => exact .inr (.inr ⟨token, rest, hword, rfl⟩)

theorem Stops.scan (h : Stops cs) : Token.scan cs current tokens =
    Token.scan cs [] (endWord current tokens) := by
  rcases h with rfl | ⟨c, hc, hblank⟩ | ⟨token, rest, htoken, rfl⟩
  · rfl
  · obtain ⟨rest, rfl⟩ := List.head?_eq_some_iff.mp hc
    rw [scan_blank hblank, scan_blank hblank]
    rfl
  · rw [scan_text htoken, scan_text htoken]
    rfl

/-- No arrow begins at the end of a word and goes on behind it. -/
theorem Stops.not_arrow {w : List Char} (h : Stops cs) (hw : ¬['-', '>'] <:+: w) :
    ¬['-', '>'] <:+: w ++ cs.take 1 := by
  have hhead : ∀ c ∈ cs.head?, c ≠ '>' := by
    rcases h with rfl | ⟨c, hc, hblank⟩ | ⟨token, rest, htoken, rfl⟩
    · simp
    · rintro d hd rfl
      obtain rfl := Option.some.inj (hc.symm.trans hd)
      exact absurd hblank (by decide)
    · cases token with
      | word text => cases htoken
      | opening => simp [text]
      | closing => simp [text]
      | bar => simp [text]
      | arrow => simp [text]
  cases cs with
  | nil => rwa [List.take_nil, List.append_nil]
  | cons c cs =>
    rw [List.take_succ_cons, List.take_zero, arrow_infix_concat]
    rintro (harrow | ⟨-, rfl⟩)
    · exact hw harrow
    · exact hhead '>' rfl rfl

/-- **A text that lays out sound tokens has these tokens.** -/
theorem IsLayout.scan_eq (h : IsLayout tokens cs) (hsound : ∀ token ∈ tokens, token.IsSound)
    (before : List Token) : scan cs [] before = before.reverse ++ tokens := by
  induction h generalizing before with
  | @nil gap hblank =>
    rw [← List.append_nil gap, scan_gap hblank, List.append_nil]
    rfl
  | @cons gap rest token tokens hblank hrest hapart ih =>
    rw [List.forall_mem_cons] at hsound
    rw [scan_gap hblank]
    cases hword : token.isWord with
    | false =>
      rw [scan_text hword, ih hsound.2, endWord]
      simp
    | true =>
      have hstops := hrest.stops (hapart hword)
      cases token with
      | word text =>
        have hclean : IsWord text.toList := hsound.1
        rw [Token.text, scan_word hclean.not_blank hclean.not_mem
          (hstops.not_arrow hclean.no_arrow), hstops.scan, ih hsound.2, endWord]
        simp [hclean.ne_nil]
      | opening => cases hword
      | closing => cases hword
      | bar => cases hword
      | arrow => cases hword

/-! ## Texts are laid out -/

/-- The word being read is one, and no arrow has begun in it. -/
structure IsReading (current cs : List Char) : Prop where
  not_blank : ∀ c ∈ current, Text.isBlank c = false
  not_mem : ∀ c ∈ current, c ∉ ['[', ']', '|']
  no_arrow : ¬['-', '>'] <:+: current.reverse ++ cs.take 1

theorem isReading_nil (cs : List Char) : IsReading [] cs where
  not_blank _ h := absurd h List.not_mem_nil
  not_mem _ h := absurd h List.not_mem_nil
  no_arrow h := by
    have hlength := h.length_le
    rw [List.reverse_nil, List.nil_append, List.length_take, List.length_cons,
      List.length_singleton] at hlength
    omega

theorem IsReading.push (h : IsReading current (c :: cs)) (hblank : Text.isBlank c = false)
    (hmem : c ∉ ['[', ']', '|']) (hnext : c = '-' → cs.head? ≠ some '>') :
    IsReading (c :: current) cs := by
  have harrow : ¬['-', '>'] <:+: (c :: current).reverse := by
    rw [List.reverse_cons]
    exact h.no_arrow
  constructor
  case not_blank => exact List.forall_mem_cons.mpr ⟨hblank, h.not_blank⟩
  case not_mem => exact List.forall_mem_cons.mpr ⟨hmem, h.not_mem⟩
  case no_arrow =>
    cases cs with
    | nil => rwa [List.take_nil, List.append_nil]
    | cons d cs =>
      rw [List.take_succ_cons, List.take_zero, arrow_infix_concat, List.getLast?_reverse]
      rintro (hinside | ⟨hdash, rfl⟩)
      · exact harrow hinside
      · exact hnext (Option.some.inj hdash) rfl

theorem reverse_endWord (current : List Char) (tokens : List Token) :
    (endWord current tokens).reverse = tokens.reverse ++ endWord current [] := by
  rw [endWord, endWord]
  split
  · simp
  · simp

theorem IsReading.layout (hreading : IsReading current cs)
    (h : IsLayout tokens cs) (hsound : ∀ token ∈ tokens, token.IsSound)
    (hapart : (∃ next ∈ tokens.head?, next.isWord = true) →
      ∃ c ∈ cs.head?, Text.isBlank c = true) :
    IsLayout (endWord current [] ++ tokens) (current.reverse ++ cs) ∧
      ∀ token ∈ endWord current [] ++ tokens, token.IsSound := by
  cases current with
  | nil => exact ⟨h, hsound⟩
  | cons c current =>
    have hword : IsWord (c :: current).reverse := by
      constructor
      case ne_nil => simp
      case not_blank => exact fun d hd ↦ hreading.not_blank d (List.mem_reverse.mp hd)
      case not_mem => exact fun d hd ↦ hreading.not_mem d (List.mem_reverse.mp hd)
      case no_arrow => exact fun harrow ↦ hreading.no_arrow (harrow.trans List.infix_append_left)
    obtain ⟨text, htext⟩ : ∃ text : String, text.toList = (c :: current).reverse :=
      ⟨_, String.toList_ofList⟩
    rw [endWord, if_neg (by simp), ← htext, String.ofList_toList, List.singleton_append,
      List.forall_mem_cons]
    rw [← htext] at hword
    exact ⟨@IsLayout.cons [] cs (word text) tokens nofun h fun _ ↦ hapart, hword, hsound⟩

/-- What is read behind a token that is no word, is read behind the word being read as well. -/
theorem IsReading.exists_scan_text {token : Token} (htoken : token.isWord = false)
    (h : IsReading current (token.text.toList ++ cs))
    (hrest : ∃ more, scan cs [] (token :: endWord current tokens) =
        (token :: endWord current tokens).reverse ++ more ∧
      IsLayout more cs ∧ ∀ token ∈ more, token.IsSound) :
    ∃ more, scan (token.text.toList ++ cs) current tokens = tokens.reverse ++ more ∧
      IsLayout more (current.reverse ++ (token.text.toList ++ cs)) ∧
        ∀ token ∈ more, token.IsSound := by
  obtain ⟨more, hmore, hlayout, hsound⟩ := hrest
  have hlayout' : IsLayout (token :: more) (token.text.toList ++ cs) :=
    @IsLayout.cons [] cs token more nofun hlayout fun hword ↦ absurd hword (by simp [htoken])
  have hsound' : ∀ other ∈ token :: more, other.IsSound := by
    rw [List.forall_mem_cons]
    refine ⟨?_, hsound⟩
    cases token with
    | word text => cases htoken
    | opening => trivial
    | closing => trivial
    | bar => trivial
    | arrow => trivial
  refine ⟨_, ?_, h.layout hlayout' hsound' ?_⟩
  · rw [scan_text htoken, hmore, List.reverse_cons, reverse_endWord]
    simp only [List.append_assoc, List.singleton_append]
  · rintro ⟨next, hnext, hword⟩
    obtain rfl := Option.some.inj hnext
    rw [htoken] at hword
    cases hword

theorem ofPunctuation?_eq_some {token : Token} (h : ofPunctuation? c = some token) :
    token.isWord = false ∧ token.text.toList = [c] := by
  rw [ofPunctuation?] at h
  split at h
  · next hc => cases h; exact ⟨rfl, hc ▸ rfl⟩
  · split at h
    · next hc => cases h; exact ⟨rfl, hc ▸ rfl⟩
    · split at h
      · next hc => cases h; exact ⟨rfl, hc ▸ rfl⟩
      · cases h

/-- What is read from the middle of a word on is laid out. -/
theorem IsReading.exists_scan_eq (h : IsReading current cs) (tokens : List Token) :
    ∃ more, scan cs current tokens = tokens.reverse ++ more ∧
      IsLayout more (current.reverse ++ cs) ∧ ∀ token ∈ more, token.IsSound := by
  induction cs, current, tokens using scan.induct with
  | case1 current tokens =>
    refine ⟨endWord current [], reverse_endWord current tokens, ?_⟩
    have hlayout := h.layout (.nil nofun) nofun (by simp)
    rwa [List.append_nil] at hlayout
  | case2 cs current tokens ih =>
    exact @exists_scan_text cs current tokens arrow rfl h (ih (isReading_nil cs))
  | case3 c cs current tokens hc token htoken ih =>
    obtain ⟨hword, htext⟩ := ofPunctuation?_eq_some htoken
    have hscan := @IsReading.exists_scan_text cs current tokens token hword
    rw [htext] at hscan
    exact hscan h (ih (isReading_nil cs))
  | case4 c cs current tokens hc htoken hblank ih =>
    obtain ⟨more, hmore, hlayout, hsound⟩ := ih (isReading_nil cs)
    refine ⟨_, ?_, h.layout (hlayout.cons_blank hblank) hsound fun _ ↦ ⟨c, rfl, hblank⟩⟩
    rw [scan_blank hblank, hmore, reverse_endWord, List.append_assoc]
  | case5 c cs current tokens hc htoken hblank ih =>
    have hmem := ofPunctuation?_eq_none_iff.mp htoken
    have hblank' : Text.isBlank c = false := eq_false_of_ne_true hblank
    have hnext : c = '-' → cs.head? ≠ some '>' := by
      intro hdash hhead
      obtain ⟨rest, hrest⟩ := List.head?_eq_some_iff.mp hhead
      exact hc rest hdash hrest
    obtain ⟨more, hmore, hlayout, hsound⟩ := ih (h.push hblank' hmem hnext)
    rw [List.reverse_cons, List.append_assoc] at hlayout
    exact ⟨more, (scan_cons hblank' hmem hnext).trans hmore, hlayout, hsound⟩

/-- **The tokens of a text** are the sound tokens that it lays out. -/
theorem ofText_eq_iff {text : String} {tokens : List Token} :
    ofText text = tokens ↔ IsLayout tokens text.toList ∧ ∀ token ∈ tokens, token.IsSound := by
  constructor
  · rintro rfl
    obtain ⟨more, hmore, hlayout, hsound⟩ := (isReading_nil text.toList).exists_scan_eq []
    rw [ofText, hmore]
    exact ⟨hlayout, hsound⟩
  · rintro ⟨hlayout, hsound⟩
    exact hlayout.scan_eq hsound []

end TilePuzzle.Token
