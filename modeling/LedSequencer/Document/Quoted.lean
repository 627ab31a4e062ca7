import LedSequencer.Document.Chars

/-! # Quoted text

  Text stands in double quotes, where a backslash escapes, or in single quotes,
  where every character stands for itself. Three quotes in a row open and close text
  that may run over several lines. All functions take the characters after the
  opening quotes and give back the text and the characters after the closing ones.
-/

namespace LedSequencer.Document

/-- The characters that stand for themselves in double quotes. -/
def isQuotedChar (c : Char) : Bool := isCommentChar c && c ≠ '"' && c ≠ '\\'

/-- The characters that stand for themselves in single quotes. -/
def isLiteralChar (c : Char) : Bool := isCommentChar c && c ≠ '\''

/-- The character that a letter after a backslash stands for. -/
def escapedChar? : Char → Option Char
  | 'b' => some '\x08'
  | 't' => some '\t'
  | 'n' => some '\n'
  | 'f' => some '\x0c'
  | 'r' => some '\r'
  | '"' => some '"'
  | '\\' => some '\\'
  | _ => none

/-- The value of a digit in the bases up to sixteen. -/
def digitValue? (c : Char) : Option Nat :=
  if c.isDigit then some (c.toNat - '0'.toNat)
  else if 'a' ≤ c && c ≤ 'f' then some (c.toNat - 'a'.toNat + 10)
  else if 'A' ≤ c && c ≤ 'F' then some (c.toNat - 'A'.toNat + 10)
  else none

/-- The character whose code point is written in hexadecimal digits. -/
def codePoint? (digits : List Char) : Option Char := do
  let values ← digits.mapM digitValue?
  let n := values.foldl (fun n d => n * 16 + d) 0
  if n.isValidChar then some (Char.ofNat n) else none

/-- Puts a character in front of the text that follows it. -/
def prepend (c : Char) (r : List Char × List Char) : List Char × List Char := (c :: r.1, r.2)

/-- Text in double quotes on one line. -/
def quoted? : List Char → Option (List Char × List Char)
  | [] => none
  | '"' :: rest => some ([], rest)
  | '\\' :: 'u' :: a :: b :: c :: d :: rest => do
    let char ← codePoint? [a, b, c, d]
    let r ← quoted? rest
    some (prepend char r)
  | '\\' :: 'U' :: a :: b :: c :: d :: e :: f :: g :: h :: rest => do
    let char ← codePoint? [a, b, c, d, e, f, g, h]
    let r ← quoted? rest
    some (prepend char r)
  | '\\' :: letter :: rest => do
    let char ← escapedChar? letter
    let r ← quoted? rest
    some (prepend char r)
  | c :: rest =>
    if isQuotedChar c then do
      let r ← quoted? rest
      some (prepend c r)
    else none

/-- Text in single quotes on one line. -/
def literal? : List Char → Option (List Char × List Char)
  | [] => none
  | c :: rest =>
    if c = '\'' then some ([], rest)
    else if isLiteralChar c then do
      let r ← literal? rest
      some (prepend c r)
    else none

/-- Whether a backslash before these characters joins lines: only blanks stand before the line
    end. -/
def joinsLines (s : List Char) : Bool := (newline? (skipGap s)).isSome

/-- Text in triple double quotes. Up to two quotes may stand before the closing ones. The flag
    tells whether the blanks and line ends after a joining backslash are being skipped. -/
def longQuoted? : Bool → List Char → Option (List Char × List Char)
  | _, [] => none
  | _, '"' :: '"' :: '"' :: '"' :: '"' :: rest => some (['"', '"'], rest)
  | _, '"' :: '"' :: '"' :: '"' :: rest => some (['"'], rest)
  | _, '"' :: '"' :: '"' :: rest => some ([], rest)
  | skipping, '\r' :: '\n' :: rest =>
    if skipping then longQuoted? true rest
    else do
      let r ← longQuoted? false rest
      some (prepend '\n' r)
  | skipping, '\n' :: rest =>
    if skipping then longQuoted? true rest
    else do
      let r ← longQuoted? false rest
      some (prepend '\n' r)
  | _, '\\' :: 'u' :: a :: b :: c :: d :: rest => do
    let char ← codePoint? [a, b, c, d]
    let r ← longQuoted? false rest
    some (prepend char r)
  | _, '\\' :: 'U' :: a :: b :: c :: d :: e :: f :: g :: h :: rest => do
    let char ← codePoint? [a, b, c, d, e, f, g, h]
    let r ← longQuoted? false rest
    some (prepend char r)
  | _, '\\' :: letter :: rest =>
    if joinsLines (letter :: rest) then
      if letter = '\r' then longQuoted? true (letter :: rest) else longQuoted? true rest
    else do
      let char ← escapedChar? letter
      let r ← longQuoted? false rest
      some (prepend char r)
  | skipping, c :: rest =>
    if skipping && isGap c then longQuoted? true rest
    else if c = '"' || isQuotedChar c then do
      let r ← longQuoted? false rest
      some (prepend c r)
    else none

/-- Text in triple single quotes. Up to two quotes may stand before the closing ones. -/
def longLiteral? : List Char → Option (List Char × List Char)
  | [] => none
  | '\'' :: '\'' :: '\'' :: '\'' :: '\'' :: rest => some (['\'', '\''], rest)
  | '\'' :: '\'' :: '\'' :: '\'' :: rest => some (['\''], rest)
  | '\'' :: '\'' :: '\'' :: rest => some ([], rest)
  | '\r' :: '\n' :: rest => do
    let r ← longLiteral? rest
    some (prepend '\n' r)
  | c :: rest =>
    if c = '\n' || isCommentChar c then do
      let r ← longLiteral? rest
      some (prepend c r)
    else none

/-- Skips the line end that may follow opening triple quotes. -/
def skipFirstNewline (s : List Char) : List Char := (newline? s).getD s

/-- Quoted text of any of the four kinds, from its opening quotes on. -/
def text? : List Char → Option (List Char × List Char)
  | '"' :: '"' :: '"' :: rest => longQuoted? false (skipFirstNewline rest)
  | '"' :: rest => quoted? rest
  | '\'' :: '\'' :: '\'' :: rest => longLiteral? (skipFirstNewline rest)
  | '\'' :: rest => literal? rest
  | _ => none

end LedSequencer.Document
