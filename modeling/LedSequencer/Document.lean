/-! # Configuration documents

  A document is a table: names with data, in the order in which the names first
  appear. Documents are written in TOML 1.0; `Document.read?` (in
  `Document/Reader`) reads one, and the rest of the library sees nothing but the
  `Document`.
-/

namespace LedSequencer

/-- A piece of data in a document. -/
inductive Datum where
  /-- A quoted text. -/
  | text (value : String)
  /-- A whole number of 64 bits with its sign. -/
  | integer (value : Int)
  /-- A number with a fraction or an exponent, or one of `inf` and `nan`, as it is written. -/
  | real (literal : String)
  /-- `true` or `false`. -/
  | truth (value : Bool)
  /-- A date, a time of day or both, as it is written. -/
  | moment (literal : String)
  /-- A list. -/
  | list (items : List Datum)
  /-- A table inside the document. -/
  | table (entries : List (String × Datum))
deriving Inhabited

/-- A whole document: its top-level names and their data, in order. -/
abbrev Document := List (String × Datum)

end LedSequencer
