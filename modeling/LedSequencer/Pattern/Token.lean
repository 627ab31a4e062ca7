import LedSequencer.Span.Literal
import LedSequencer.Text.Alphabetic
import LedSequencer.Text.Blank

/-! # Words of the pattern language

  A pattern is a line of words, and each word is classified on its own:

  - `-` switches every channel of the selected LED off;
  - `Colored:` selects an LED for the words that follow;
  - `250`, `3s` wait;
  - `RgB` switches one channel per letter, on for upper case and off for lower case.
-/

namespace LedSequencer

/-- What a word asks for. -/
inductive Token where
  /-- Switch every channel of the selected LED off. -/
  | allOff
  /-- Select the LED with the name. -/
  | select (name : String)
  /-- Wait. -/
  | pause (length : Span)
  /-- Switch one channel per letter. -/
  | channels (letters : List Char)
  /-- The word has none of the known shapes. -/
  | unknown (word : String)
deriving DecidableEq

/-- Whether characters are a selector's name: they start with an alphabetic one and hold no
    colon. -/
def isSelectorName : List Char → Bool
  | [] => false
  | c :: rest => isAlphabetic c && !(c :: rest).contains ':'

/-- Whether characters start with a decimal digit. -/
def startsWithDigit : List Char → Bool
  | [] => false
  | c :: _ => c.isDigit

/-- Classifies a word. A word that ends in a colon is a selector or nothing, and one that starts
    with a digit is a pause or nothing. -/
def Token.ofWord (word : List Char) : Token :=
  if word = ['-'] then .allOff
  else if word.getLast? = some ':' then
    if isSelectorName word.dropLast then .select (String.ofList word.dropLast)
    else .unknown (String.ofList word)
  else if startsWithDigit word then
    match Span.ofLiteral? word with
    | some length => .pause length
    | none => .unknown (String.ofList word)
  else if word.all isAlphabetic then .channels word
  else .unknown (String.ofList word)

/-- The tokens of a line in order. -/
def tokens (line : String) : List Token := (words line.toList).map Token.ofWord

end LedSequencer
