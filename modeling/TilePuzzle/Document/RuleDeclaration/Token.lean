import TilePuzzle.Text

/-!
# The tokens of a rule line

A rule line is made of brackets, bars, arrows and words. A bracket, a bar or an arrow is a token of
its own wherever it stands, even inside what would otherwise be a word; words end at blanks and at
these tokens.
-/

namespace TilePuzzle

/-- A token of a rule line. -/
inductive Token
  | opening
  | closing
  | bar
  | arrow
  | word (text : String)
deriving DecidableEq, Inhabited

namespace Token

/-- How the token is written. -/
def text : Token → String
  | opening => "["
  | closing => "]"
  | bar => "|"
  | arrow => "->"
  | word text => text

/-- The token that a single character makes. -/
def ofPunctuation? (c : Char) : Option Token :=
  if c = '[' then some opening
  else if c = ']' then some closing
  else if c = '|' then some bar
  else none

/-- Ends the word being read, whose characters are listed the latest first. -/
def endWord (current : List Char) (tokens : List Token) : List Token :=
  if current.isEmpty then tokens else word (.ofList current.reverse) :: tokens

/-- Reads on; `current` holds the characters of the word being read and `tokens` the tokens before
it, both the latest first. -/
def scan : List Char → List Char → List Token → List Token
  | [], current, tokens => (endWord current tokens).reverse
  | '-' :: '>' :: cs, current, tokens => scan cs [] (arrow :: endWord current tokens)
  | c :: cs, current, tokens =>
    match ofPunctuation? c with
    | some token => scan cs [] (token :: endWord current tokens)
    | none =>
      if Text.isBlank c then scan cs [] (endWord current tokens) else scan cs (c :: current) tokens

/-- The tokens of a text. -/
def ofText (text : String) : List Token := scan text.toList [] []

end Token

end TilePuzzle
