/-! # Characters and gaps of documents -/

namespace LedSequencer.Document

/-- The blanks that may stand between the parts of a line. -/
def isGap (c : Char) : Bool := c = ' ' || c = '\t'

/-- The characters of a key without quotes. -/
def isBareKeyChar (c : Char) : Bool := c.isAlphanum || c = '_' || c = '-'

/-- The characters of a comment: all but the control characters, among which a tab is allowed. -/
def isCommentChar (c : Char) : Bool :=
  c = '\t' || (0x20 ≤ c.toNat && c.toNat ≤ 0x7E) || 0x80 ≤ c.toNat

/-- The characters that numbers, dates, times and truth values are written with. -/
def isPlainChar (c : Char) : Bool :=
  c.isAlphanum || c = '_' || c = '-' || c = '+' || c = '.' || c = ':'

/-- Skips the blanks within a line. -/
def skipGap (s : List Char) : List Char := s.dropWhile isGap

/-- Takes one line end, which is a line feed or a carriage return with a line feed. -/
def newline? : List Char → Option (List Char)
  | '\n' :: rest => some rest
  | '\r' :: '\n' :: rest => some rest
  | _ => none

/-- Takes what may follow the last part of a line: blanks, a comment and the line end, which may
    be missing at the end of the document. -/
def lineEnd? (s : List Char) : Option (List Char) :=
  let afterComment :=
    match skipGap s with
    | '#' :: rest => rest.dropWhile isCommentChar
    | rest => rest
  match afterComment with
  | [] => some []
  | rest => newline? rest

/-- Skips what may stand between the elements of a list: blanks, line ends and comments. The flag
    tells whether a comment is under way. -/
def skipFiller : Bool → List Char → List Char
  | _, [] => []
  | _, '\n' :: rest => skipFiller false rest
  | inComment, '\r' :: rest =>
    match rest with
    | '\n' :: _ => skipFiller inComment rest
    | _ => '\r' :: rest
  | true, c :: rest => if isCommentChar c then skipFiller true rest else c :: rest
  | false, c :: rest =>
    if isGap c then skipFiller false rest
    else if c = '#' then skipFiller true rest
    else c :: rest

end LedSequencer.Document
