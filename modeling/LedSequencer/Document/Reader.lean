import LedSequencer.Document.Assembly
import LedSequencer.Document.MarkedMoment
import LedSequencer.Document.Number

/-! # Reading documents

  A document is read line by line: blank lines and comments, headers in brackets,
  and pairs of a key and a value. Each reader takes characters off the front and
  gives back what they say and the characters that follow; `none` means that the
  document is malformed.
-/

namespace LedSequencer.Document

/-- Takes something off the front of the characters that are left. -/
abbrev Reader (α : Type) := List Char → Option (α × List Char)

/-- How deep lists and tables in braces may nest, and how many parts a key may have. -/
def nestingLimit : Nat := 79

/-! ### Keys -/

/-- One part of a key: bare, or in quotes of one line. -/
def keyPart? : Reader String
  | '"' :: rest => do
    let (part, rest) ← quoted? rest
    some (String.ofList part, rest)
  | '\'' :: rest => do
    let (part, rest) ← literal? rest
    some (String.ofList part, rest)
  | s =>
    let part := s.takeWhile isBareKeyChar
    if part = [] then none else some (String.ofList part, s.dropWhile isBareKeyChar)

/-- The parts of a key with points between them, at most as many as the first argument says, and
    the blanks around them. -/
def keyParts? : Nat → Reader (List String)
  | 0, _ => none
  | parts + 1, s => do
    let (part, rest) ← keyPart? (skipGap s)
    match skipGap rest with
    | '.' :: rest => do
      let (more, rest) ← keyParts? parts rest
      some (part :: more, rest)
    | rest => some ([part], rest)

/-- A key, cut into its last part and the path before it. -/
def key? (s : List Char) : Option ((List String × String) × List Char) := do
  let (parts, rest) ← keyParts? nestingLimit s
  let last ← parts.getLast?
  some ((parts.dropLast, last), rest)

/-! ### Values -/

/-- A value without quotes and brackets. A date takes in the time after a blank. -/
def plainValue? : Reader Datum := fun s =>
  let first := s.takeWhile isPlainChar
  let rest := s.dropWhile isPlainChar
  let (word, rest) :=
    match isDate first, rest with
    | true, ' ' :: c :: more =>
      if c.isDigit then
        (first ++ ' ' :: (c :: more).takeWhile isPlainChar, (c :: more).dropWhile isPlainChar)
      else (first, rest)
    | _, _ => (first, rest)
  if word = ['t', 'r', 'u', 'e'] then some (.truth true, rest)
  else if word = ['f', 'a', 'l', 's', 'e'] then some (.truth false, rest)
  else
    match integer? word with
    | some n => some (.integer n, rest)
    | none =>
      if isReal word then some (.real (String.ofList word), rest)
      else if isMoment word then some (.moment (String.ofList word), rest)
      else none

/-- The elements of a list after its opening bracket, up to and with the closing one. The number
    bounds how many there can be. -/
def elements? (value : Reader Datum) : Nat → Reader (List Datum)
  | 0, _ => none
  | bound + 1, s =>
    match skipFiller false s with
    | ']' :: rest => some ([], rest)
    | s => do
      let (datum, rest) ← value s
      match skipFiller false rest with
      | ',' :: rest => do
        let (more, rest) ← elements? value bound rest
        some (datum :: more, rest)
      | ']' :: rest => some ([datum], rest)
      | _ => none

/-- A key, an equals sign and a value. -/
def pair? (value : Reader Datum) : Reader Pair := fun s => do
  let ((path, key), rest) ← key? s
  match rest with
  | '=' :: rest => do
    let (datum, rest) ← value (skipGap rest)
    some ({ path, key, datum }, rest)
  | _ => none

/-- The pairs of a table in braces after the opening one, up to and with the closing one. The
    number bounds how many there can be. -/
def pairs? (value : Reader Datum) : Nat → Reader (List Pair)
  | 0, _ => none
  | bound + 1, s => do
    let (pair, rest) ← pair? value s
    match skipGap rest with
    | ',' :: rest => do
      let (more, rest) ← pairs? value bound rest
      some (pair :: more, rest)
    | '}' :: rest => some ([pair], rest)
    | _ => none

/-- A table in braces after the opening one. -/
def inlineTable? (value : Reader Datum) : Reader Datum := fun s =>
  match skipGap s with
  | '}' :: rest => some (.table [], rest)
  | s => do
    let (pairs, rest) ← pairs? value s.length s
    let entries ← Entries.fill [] pairs
    some (.table (entriesToData entries), rest)

/-- A value whose lists and tables nest at most as deep as the number says. -/
def value? : Nat → Reader Datum
  | 0, s =>
    match s with
    | '"' :: _ | '\'' :: _ => do
      let (text, rest) ← text? s
      some (.text (String.ofList text), rest)
    | _ => plainValue? s
  | depth + 1, s =>
    match s with
    | '[' :: rest => do
      let (items, rest) ← elements? (value? depth) s.length rest
      some (.list items, rest)
    | '\x7b' :: rest => inlineTable? (value? depth) rest
    | '"' :: _ | '\'' :: _ => do
      let (text, rest) ← text? s
      some (.text (String.ofList text), rest)
    | _ => plainValue? s

/-! ### Lines -/

/-- A line that says something. -/
inductive Line where
  /-- A key with its value. -/
  | pair (pair : Pair)
  /-- A header. -/
  | header (isElement : Bool) (path : List String) (key : String)

/-- A header without the blanks before it. -/
def header? : Reader Line
  | '[' :: '[' :: s => do
    let ((path, key), rest) ← key? s
    match rest with
    | ']' :: ']' :: rest => some (.header true path key, rest)
    | _ => none
  | '[' :: s => do
    let ((path, key), rest) ← key? s
    match rest with
    | ']' :: rest => some (.header false path key, rest)
    | _ => none
  | _ => none

/-- What a line says, without the blanks before it and up to what may follow it. Blank lines and
    comments say nothing. -/
def line? : Reader (Option Line) := fun s =>
  match s with
  | [] => some (none, s)
  | '#' :: _ | '\n' :: _ | '\r' :: _ => some (none, s)
  | '[' :: _ => do
    let (line, rest) ← header? s
    some (some line, rest)
  | _ => do
    let (pair, rest) ← pair? (value? nestingLimit) s
    some (some (.pair pair), rest)

/-- The lines of a document that say something. The number bounds how many lines there can be. -/
def lines? : Nat → List Char → Option (List Line)
  | 0, s => if s = [] then some [] else none
  | bound + 1, s =>
    if s = [] then some []
    else do
      let (line, rest) ← line? (skipGap s)
      let rest ← lineEnd? rest
      let more ← lines? bound rest
      some (line.toList ++ more)

/-- Cuts lines into the pairs before the first header and the sections after it. -/
def sections : List Line → List Pair × List Section
  | [] => ([], [])
  | .pair pair :: rest => (pair :: (sections rest).1, (sections rest).2)
  | .header isElement path key :: rest =>
    ([], { isElement, path, key, pairs := (sections rest).1 } :: (sections rest).2)

/-- Leaves out the mark that may open a document. -/
def skipMark : List Char → List Char
  | '\uFEFF' :: s => s
  | s => s

/-- Reads a document; `none` when it is malformed or says something twice. -/
def read? (text : String) : Option Document := do
  let s := skipMark text.toList
  let lines ← lines? s.length s
  let entries ← assemble? (sections lines).1 (sections lines).2
  Datum.settleEntries? entries

end LedSequencer.Document
