import TilePuzzle.Color
import TilePuzzle.Document.RuleDeclaration.Reader

/-!
# Rule lines are cut between characters

A rule line can be read by offsets: the reader notes the byte at which a word begins and cuts the
word out of the line where it ends, it cuts a movement symbol off behind its first character, and it
fetches the words of a cell by their numbers. Every such access may fail: an offset may lie inside a
character or behind the text, and a number behind the words.

## Two readers

The readers are written down here in this way, and an access that fails has no result. They always
have one, and it is that of the readers, which go from one character and one word to the next.

## The invariant

An offset is the number of bytes of the characters in front of it, so it lies between characters.
The scanner by offsets is behind the same characters as the other scanner, and the word being read
is what lies between the two offsets that it keeps (`wordStart`).
-/

namespace TilePuzzle

/-! ## Bytes of a text -/

namespace Color

private theorem foldl_utf8Size (cs : List Char) (n : Nat) :
    cs.foldl (fun n c ↦ n + c.utf8Size) n = n + byteCount cs := by
  induction cs generalizing n with
  | nil => rfl
  | cons c cs ih =>
    rw [byteCount, List.foldl_cons, List.foldl_cons, ih, ih, Nat.zero_add, Nat.add_assoc]

@[simp] theorem byteCount_cons (c : Char) (cs : List Char) :
    byteCount (c :: cs) = c.utf8Size + byteCount cs := by
  rw [byteCount, List.foldl_cons, foldl_utf8Size, Nat.zero_add]

@[simp] theorem byteCount_append (front rest : List Char) :
    byteCount (front ++ rest) = byteCount front + byteCount rest := by
  rw [byteCount, List.foldl_append, foldl_utf8Size]
  rfl

end Color

open Color (byteCount byteCount_cons byteCount_append)

namespace Text

/-- What follows the first bytes of a text, unless it begins inside a character or there are not so
many bytes. -/
def dropBytes? : Nat → List Char → Option (List Char)
  | 0, cs => some cs
  | _ + 1, [] => none
  | n + 1, c :: cs =>
    if c.utf8Size ≤ n + 1 then dropBytes? (n + 1 - c.utf8Size) cs else none

/-- The first bytes of a text, unless they end inside a character or there are not so many. -/
def takeBytes? : Nat → List Char → Option (List Char)
  | 0, _ => some []
  | _ + 1, [] => none
  | n + 1, c :: cs =>
    if c.utf8Size ≤ n + 1 then (takeBytes? (n + 1 - c.utf8Size) cs).map (c :: ·) else none

/-- The part of a text between two offsets in bytes. -/
def slice? (text : List Char) (start stop : Nat) : Option (List Char) :=
  if start ≤ stop then (dropBytes? start text).bind (takeBytes? (stop - start)) else none

/-- Some bytes come before those of a text, and one more than none. -/
private theorem exists_byteCount_cons (c : Char) (cs : List Char) :
    ∃ n, byteCount (c :: cs) = n + 1 ∧ c.utf8Size ≤ n + 1 ∧
      n + 1 - c.utf8Size = byteCount cs := by
  have hpos := c.utf8Size_pos
  refine ⟨byteCount (c :: cs) - 1, ?_⟩
  rw [byteCount_cons]
  omega

@[simp] theorem dropBytes?_append (front rest : List Char) :
    dropBytes? (byteCount front) (front ++ rest) = some rest := by
  induction front with
  | nil =>
    cases rest with
    | nil => rfl
    | cons c cs => rfl
  | cons c front ih =>
    obtain ⟨n, hcount, hle, hrest⟩ := exists_byteCount_cons c front
    simp [hcount, dropBytes?, hle, hrest, ih]

@[simp] theorem takeBytes?_append (front rest : List Char) :
    takeBytes? (byteCount front) (front ++ rest) = some front := by
  induction front with
  | nil =>
    cases rest with
    | nil => rfl
    | cons c cs => rfl
  | cons c front ih =>
    obtain ⟨n, hcount, hle, hrest⟩ := exists_byteCount_cons c front
    simp [hcount, takeBytes?, hle, hrest, ih]

theorem slice?_append (front part rest : List Char) :
    slice? (front ++ part ++ rest) (byteCount front) (byteCount (front ++ part)) = some part := by
  simp [slice?]

end Text

/-! ## Tokens -/

namespace Token

/-- Ends the word being read, if there is one, by cutting it out of the text. -/
def endWordAt (text : List Char) (start : Option Nat) (stop : Nat) (tokens : List Token) :
    Option (List Token) :=
  match start with
  | none => some tokens
  | some start => (Text.slice? text start stop).map fun cs ↦ word (.ofList cs) :: tokens

/-- Reads on at an offset; `start` is where the word being read begins, and `tokens` holds the
tokens before it, the latest first. -/
def scanAt (text : List Char) :
    List Char → Nat → Option Nat → List Token → Option (List Token)
  | [], place, start, tokens => (endWordAt text start place tokens).map List.reverse
  | '-' :: '>' :: cs, place, start, tokens =>
    (endWordAt text start place tokens).bind fun tokens ↦
      scanAt text cs (place + '-'.utf8Size + '>'.utf8Size) none (arrow :: tokens)
  | c :: cs, place, start, tokens =>
    match ofPunctuation? c with
    | some token =>
      (endWordAt text start place tokens).bind fun tokens ↦
        scanAt text cs (place + c.utf8Size) none (token :: tokens)
    | none =>
      if Text.isBlank c then
        (endWordAt text start place tokens).bind fun tokens ↦
          scanAt text cs (place + c.utf8Size) none tokens
      else
        scanAt text cs (place + c.utf8Size) (some (start.getD place)) tokens

/-- The tokens of a text, cut out of it. -/
def sliceText? (text : String) : Option (List Token) :=
  scanAt text.toList text.toList 0 none []

/-- Where the word being read begins, if one is being read behind some characters. -/
def wordStart (front current : List Char) : Option Nat :=
  if current.isEmpty then none else some (byteCount front)

theorem endWordAt_eq {text front current rest : List Char}
    (htext : front ++ current.reverse ++ rest = text) (tokens : List Token) :
    endWordAt text (wordStart front current) (byteCount (front ++ current.reverse)) tokens =
      some (endWord current tokens) := by
  cases current with
  | nil => rfl
  | cons c current =>
    have hslice := Text.slice?_append front (c :: current).reverse rest
    rw [wordStart, if_neg (by simp), ← htext, endWordAt.eq_def]
    dsimp only
    rw [hslice]
    rfl

private theorem read_gap {text front rest : List Char} (gap : List Char)
    (htext : front ++ (gap ++ rest) = text) :
    front ++ gap ++ ([] : List Char).reverse ++ rest = text ∧
      byteCount (front ++ gap ++ ([] : List Char).reverse) = byteCount front + byteCount gap := by
  rw [List.reverse_nil, List.append_nil, List.append_assoc, byteCount_append]
  exact ⟨htext, rfl⟩

theorem scanAt_eq {text front current rest : List Char}
    (htext : front ++ current.reverse ++ rest = text) (tokens : List Token) :
    scanAt text rest (byteCount (front ++ current.reverse)) (wordStart front current) tokens =
      some (scan rest current tokens) := by
  have hend := endWordAt_eq htext
  induction rest, current, tokens using scan.induct generalizing front with
  | case1 current tokens =>
    rw [scanAt, scan, hend]
    rfl
  | case2 cs current tokens ih =>
    obtain ⟨htext', hcount⟩ := read_gap ['-', '>'] htext
    have hrest := ih htext' (endWordAt_eq htext')
    rw [hcount, byteCount_cons, byteCount_cons, ← Nat.add_assoc, ← Nat.add_assoc] at hrest
    rw [scanAt, scan, hend]
    exact hrest
  | case3 c cs current tokens hc token htoken ih =>
    obtain ⟨htext', hcount⟩ := read_gap [c] htext
    have hrest := ih htext' (endWordAt_eq htext')
    rw [hcount, byteCount_cons, ← Nat.add_assoc] at hrest
    rw [scanAt.eq_3 _ _ _ _ _ _ hc, scan.eq_3 _ _ _ _ hc, htoken]
    dsimp only
    rw [hend]
    exact hrest
  | case4 c cs current tokens hc htoken hblank ih =>
    obtain ⟨htext', hcount⟩ := read_gap [c] htext
    have hrest := ih htext' (endWordAt_eq htext')
    rw [hcount, byteCount_cons, ← Nat.add_assoc] at hrest
    rw [scanAt.eq_3 _ _ _ _ _ _ hc, scan.eq_3 _ _ _ _ hc, htoken]
    dsimp only
    rw [if_pos hblank, if_pos hblank, hend]
    exact hrest
  | case5 c cs current tokens hc htoken hblank ih =>
    -- the character belongs to the word being read, or begins one
    have htext' : front ++ (c :: current).reverse ++ cs = text := by
      rw [← htext, List.reverse_cons, List.append_assoc, List.append_assoc, List.append_assoc]
      rfl
    have hcount : byteCount (front ++ (c :: current).reverse) =
        byteCount (front ++ current.reverse) + c.utf8Size := by
      rw [List.reverse_cons, ← List.append_assoc, byteCount_append, byteCount_cons]
      rfl
    have hstart : wordStart front (c :: current) =
        some ((wordStart front current).getD (byteCount (front ++ current.reverse))) := by
      cases current with
      | nil =>
        rw [List.reverse_nil, List.append_nil]
        rfl
      | cons d current => rfl
    have hrest := ih htext' (endWordAt_eq htext')
    rw [hcount, hstart] at hrest
    rw [scanAt.eq_3 _ _ _ _ _ _ hc, scan.eq_3 _ _ _ _ hc, htoken]
    dsimp only
    rw [if_neg hblank, if_neg hblank]
    exact hrest

@[simp] theorem sliceText?_eq (text : String) : sliceText? text = some (ofText text) :=
  @scanAt_eq text.toList [] [] text.toList rfl []

end Token

/-! ## Glued symbols -/

namespace RuleDeclaration

/-- Splits off the movement symbol that a word begins with, by cutting behind its first
character. -/
def splitSymbolAt (word : String) : Option (List String) :=
  match word.toList with
  | symbol :: c :: rest =>
    if symbol = '>' ∨ symbol = '<' ∨ symbol = '^' then do
      let front ← Text.slice? word.toList 0 symbol.utf8Size
      let back ← Text.slice? word.toList symbol.utf8Size (byteCount (symbol :: c :: rest))
      return [.ofList front, .ofList back]
    else
      some [word]
  | _ => some [word]

@[simp] theorem splitSymbolAt_eq (word : String) :
    splitSymbolAt word = some (splitSymbol word) := by
  rw [splitSymbolAt, splitSymbol]
  rcases word.toList with _ | ⟨symbol, _ | ⟨c, rest⟩⟩
  · rfl
  · rfl
  · have hfront := Text.slice?_append [] [symbol] (c :: rest)
    have hback := Text.slice?_append [symbol] (c :: rest) []
    have hone : byteCount [symbol] = symbol.utf8Size := byteCount_cons symbol []
    rw [List.nil_append, hone] at hfront
    rw [List.append_nil, hone] at hback
    dsimp only
    split
    · change (Text.slice? ([symbol] ++ c :: rest) (byteCount []) symbol.utf8Size).bind _ = _
      rw [hfront, Option.bind_some]
      change (Text.slice? ([symbol] ++ c :: rest) symbol.utf8Size
        (byteCount ([symbol] ++ c :: rest))).bind _ = _
      rw [hback]
      rfl
    · rfl

/-! ## Words of a cell -/

/-- Whether the word at an index negates what is behind it, and where that begins. -/
def negationAt (words : List String) (index : Nat) : Option (Bool × Nat) := do
  let word ← words[index]?
  return if Text.sameWord "no" word && index + 1 < words.length then (true, index + 1)
    else (false, index)

/-- The movement that the word at an index gives to what is behind it, and where that begins. -/
def movementAt (words : List String) (index : Nat) : Option (Option MovementWord × Nat) :=
  if index + 1 < words.length then do
    let word ← words[index]?
    match MovementWord.ofWord? word with
    | some movement => return (some movement, index + 1)
    | none => return (none, index)
  else
    some (none, index)

/-- Reads the words of a cell from an index on, in a number of rounds that have to suffice; `terms`
holds the terms so far, the latest first. -/
def readTermsAt (words : List String) : Nat → Nat → List PatternTerm → Option CellPattern
  | 0, index, terms => if index < words.length then none else some terms.reverse
  | rounds + 1, index, terms =>
    if index < words.length then do
      let (negated, index) ← negationAt words index
      let (movement, index) ← movementAt words index
      let name ← words[index]?
      readTermsAt words rounds (index + 1) (⟨negated, movement, name⟩ :: terms)
    else
      some terms.reverse

/-- Reads the words of a cell, fetched by their numbers; every round takes up a word. -/
def readCellAt (words : List String) : Option CellPattern :=
  readTermsAt words words.length 0 []

variable {words rest : List String} {word : String} {index : Nat}

theorem getElem?_of_drop (h : words.drop index = word :: rest) :
    words[index]? = some word ∧ words.drop (index + 1) = rest ∧
      words.length = index + 1 + rest.length := by
  have hlength := congrArg List.length h
  rw [List.length_drop, List.length_cons] at hlength
  refine ⟨?_, ?_, by omega⟩
  · rw [← Nat.add_zero index, ← List.getElem?_drop, h]
    rfl
  · rw [← List.drop_drop, h]
    rfl

theorem negationAt_eq (h : words.drop index = word :: rest) :
    negationAt words index =
      some (if !rest.isEmpty && Text.sameWord "no" word then (true, index + 1)
        else (false, index)) := by
  obtain ⟨hword, -, hlength⟩ := getElem?_of_drop h
  have hnext : decide (index + 1 < words.length) = !rest.isEmpty := by
    cases rest with
    | nil => simp [hlength]
    | cons next rest => simp [hlength]
  rw [negationAt, hword, Bool.and_comm, hnext]
  rfl

theorem movementAt_eq (h : words.drop index = word :: rest) :
    movementAt words index =
      some (match movementBefore? word rest with
        | some movement => (some movement, index + 1)
        | none => (none, index)) := by
  obtain ⟨hword, -, hlength⟩ := getElem?_of_drop h
  rw [movementAt, movementBefore?]
  cases rest with
  | nil =>
    rw [if_neg (by simp [hlength])]
    rfl
  | cons next rest =>
    rw [if_pos (by simp [hlength]), hword, if_neg (by simp)]
    cases hmovement : MovementWord.ofWord? word with
    | none => simp [hmovement]
    | some movement => simp [hmovement]

/-- The same term is read, if the terms behind it are. -/
theorem readTermAt_eq {rounds : Nat} {terms : List PatternTerm}
    (hrest : ∀ later, index < later → ∀ terms, readTermsAt words rounds later terms =
      some (readTerms false none terms (words.drop later)))
    (negated : Bool) (h : words.drop index = word :: rest) :
    ((movementAt words index).bind fun (movement, index) ↦ words[index]?.bind fun name ↦
        readTermsAt words rounds (index + 1) (⟨negated, movement, name⟩ :: terms)) =
      some (match movementBefore? word rest with
        | some movement => readTerms negated (some movement) terms rest
        | none => readTerms false none (⟨negated, none, word⟩ :: terms) rest) := by
  obtain ⟨hword, hbehind, -⟩ := getElem?_of_drop h
  rw [movementAt_eq h, Option.bind_some]
  cases hmovement : movementBefore? word rest with
  | none =>
    dsimp only
    rw [hword, Option.bind_some, hrest (index + 1) (by omega), hbehind]
  | some movement =>
    -- a movement word has something behind it
    cases rest with
    | nil => cases hmovement
    | cons next rest =>
      obtain ⟨hnext, hlast, -⟩ := getElem?_of_drop hbehind
      dsimp only
      rw [hnext, Option.bind_some, hrest (index + 1 + 1) (by omega), hlast]
      rfl

theorem readTermsAt_eq {rounds : Nat} (hrounds : words.length ≤ index + rounds)
    (terms : List PatternTerm) : readTermsAt words rounds index terms =
      some (readTerms false none terms (words.drop index)) := by
  induction rounds generalizing index terms with
  | zero =>
    have hend : words.length ≤ index := hrounds
    rw [readTermsAt, if_neg (Nat.not_lt.mpr hend), List.drop_eq_nil_of_le hend]
    rfl
  | succ rounds ih =>
    by_cases hlt : index < words.length
    · obtain ⟨word, rest, h⟩ : ∃ word rest, words.drop index = word :: rest :=
        ⟨_, _, List.drop_eq_getElem_cons hlt⟩
      have hrest : ∀ later, index < later → ∀ terms, readTermsAt words rounds later terms =
          some (readTerms false none terms (words.drop later)) :=
        fun later hlater terms ↦ ih (by omega) terms
      rw [readTermsAt, if_pos hlt, negationAt_eq h, h, readTerms, Bool.not_false, Bool.true_and]
      by_cases hno : (!rest.isEmpty && Text.sameWord "no" word) = true
      · rw [if_pos hno, if_pos hno]
        cases rest with
        | nil => cases hno
        | cons next rest =>
          obtain ⟨-, hbehind, -⟩ := getElem?_of_drop h
          exact readTermAt_eq (fun later hlater ↦ hrest later (by omega)) true hbehind
      · rw [if_neg hno, if_neg hno]
        exact readTermAt_eq hrest false h
    · rw [readTermsAt, if_neg hlt, List.drop_eq_nil_of_le (by omega)]
      rfl

@[simp] theorem readCellAt_eq (words : List String) : readCellAt words = some (readCell words) :=
  readTermsAt_eq (Nat.le_of_eq (Nat.zero_add _).symm) []

end RuleDeclaration

end TilePuzzle
