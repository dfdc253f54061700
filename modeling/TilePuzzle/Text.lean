/-!
# Texts: blanks, words and vocabularies

Documents are laid out with blanks and written in words.

## Blanks

A blank is any character with the Unicode property `White_Space`: twenty-five code points, of which
the no-break space, the ideographic space and the line separator are members while the zero-width
space and the byte order mark are not.

## Vocabularies

Keywords, names and input words are compared without regard to ASCII case, and only ASCII letters
have a case here. A word is *folded* by writing its ASCII letters in lower case; two words are the
same if they fold alike. A *vocabulary* is a list of values with a spelling each; reading a word
finds the first value spelled that way.

## Representation

Everything here works on `List Char`; the `String` versions wrap it. Loops over a text are folds
and the list operations of the core library, so their depth does not grow with the text.
-/

namespace TilePuzzle.Text

/-! ## Blanks -/

/-- A character with the Unicode property `White_Space`. -/
def isBlank (c : Char) : Bool :=
  ('\t' ≤ c && c ≤ '\r') || c == ' ' || c == '\u0085' || c == '\u00a0' || c == '\u1680' ||
    ('\u2000' ≤ c && c ≤ '\u200a') || c == '\u2028' || c == '\u2029' || c == '\u202f' ||
    c == '\u205f' || c == '\u3000'

/-! ## Trimming -/

/-- Drops the blanks at both ends. -/
def trimChars (cs : List Char) : List Char :=
  ((cs.dropWhile isBlank).reverse.dropWhile isBlank).reverse

/-- Drops the blanks at both ends of a text. -/
def trim (s : String) : String := .ofList (trimChars s.toList)

/-! ## Words

A text is cut at every character that satisfies `isGap`, and empty pieces are dropped. -/

/-- One step of the cut, taken from the end of the text: the word being read and the words after
it. -/
def pushChar (isGap : Char → Bool) (c : Char) :
    List Char × List (List Char) → List Char × List (List Char)
  | (word, words) =>
    if isGap c then
      ([], if word.isEmpty then words else word :: words)
    else
      (c :: word, words)

/-- The maximal runs of characters that are no gap, in order. -/
def pieces (isGap : Char → Bool) (cs : List Char) : List (List Char) :=
  match cs.foldr (pushChar isGap) ([], []) with
  | (word, words) => if word.isEmpty then words else word :: words

/-- The non-empty words of a text, separated by blanks. -/
def words (s : String) : List String := (pieces isBlank s.toList).map .ofList

/-! ## The first word

The rest of the line after the first blank, where there is one. -/

/-- The characters before the first one that satisfies `p`, and those after it if it exists. -/
def cutAt (p : Char → Bool) (cs : List Char) : List Char × Option (List Char) :=
  match cs.dropWhile (fun c ↦ !p c) with
  | [] => (cs, none)
  | _ :: rest => (cs.takeWhile (fun c ↦ !p c), some rest)

/-! ## Occurrence -/

/-- Whether `needle` occurs in a text as consecutive characters. -/
def occursIn (needle : List Char) : List Char → Bool
  | [] => needle.isEmpty
  | c :: cs => needle.isPrefixOf (c :: cs) || occursIn needle cs

/-! ## Words of a fixed vocabulary -/

/-- The characters of a text with the ASCII letters in lower case. -/
def foldChars (s : String) : List Char := s.toList.map Char.toLower

/-- The spelling under which a word is filed: ASCII letters in lower case, all else unchanged. -/
def fold (s : String) : String := .ofList (foldChars s)

/-- Equality up to ASCII case. -/
def sameWord (s t : String) : Bool := foldChars s == foldChars t

@[simp] theorem toList_fold (s : String) : (fold s).toList = foldChars s := String.toList_ofList

theorem sameWord_iff (s t : String) : sameWord s t = true ↔ fold s = fold t := by
  rw [sameWord, beq_iff_eq, ← String.toList_inj, toList_fold, toList_fold]

/-- The first of `values` whose spelling is `word` up to ASCII case. -/
def readWord? {α : Type} (values : List α) (spelling : α → String) (word : String) : Option α :=
  values.find? fun value ↦ sameWord (spelling value) word

end TilePuzzle.Text
