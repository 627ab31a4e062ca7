import LedSequencer.Document

/-! # Assembling tables

  A document names its tables in headers and in dotted keys, and it may add to a
  table only from where the table may still grow. While a document is assembled each
  table therefore remembers how it came to be:

  - a table with a *header* of its own takes pairs from below that header only;
  - a table that was only *passed* on the way to a deeper header may still get its
    own header, once; it then moves to the end of its parent;
  - a table made by a *dotted* key grows by further dotted keys of the same place
    and by deeper headers.

  Every function answers `none` when the document says something twice.
-/

namespace LedSequencer.Document

/-- How a table came to be. -/
inductive Origin where
  /-- It has a header, or it is written in braces. -/
  | header
  /-- It was named on the way to a deeper header. -/
  | passed
  /-- It was named on the way to the end of a dotted key. -/
  | dotted
deriving DecidableEq

/-- What a name stands for while the document is assembled. -/
inductive Node where
  /-- Complete data. -/
  | value (datum : Datum)
  /-- A table that may still grow. -/
  | table (origin : Origin) (entries : List (String × Node))
  /-- A list of tables, each with a header of its own; the last one may still grow. -/
  | tables (elements : List (List (String × Node)))

/-- Names and what they stand for, in order. -/
abbrev Entries := List (String × Node)

namespace Entries

/-- Puts a node in the place of the one that has the name. -/
def replace (key : String) (node : Node) (t : Entries) : Entries :=
  t.map fun entry => if entry.1 = key then (key, node) else entry

/-- Takes a name out. -/
def remove (key : String) (t : Entries) : Entries := t.filter fun entry => entry.1 ≠ key

/-- Puts a value under a dotted key: `path` leads to the table, `key` is the last part. The
    argument `mayEnd` tells whether the table reached so far may take a pair itself. -/
def put (mayEnd : Bool) (key : String) (datum : Datum) : List String → Entries → Option Entries
  | [], t =>
    if mayEnd && (t.lookup key).isNone then some (t ++ [(key, .value datum)]) else none
  | part :: path, t =>
    match t.lookup part with
    | none => do
      let inner ← put true key datum path []
      some (t ++ [(part, .table .dotted inner)])
    | some (.table .header _) => none
    | some (.table origin entries) => do
      let inner ← put (origin = .dotted) key datum path entries
      some (t.replace part (.table origin inner))
    | some (.tables elements) => do
      let inner ← put false key datum path (elements.getLastD [])
      some (t.replace part (.tables (elements.dropLast ++ [inner])))
    | some (.value _) => none

/-- Changes the table that a header's path leads to; tables that are missing on the way are made. -/
def within (change : Entries → Option Entries) : List String → Entries → Option Entries
  | [], t => change t
  | part :: path, t =>
    match t.lookup part with
    | none => do
      let inner ← within change path []
      some (t ++ [(part, .table .passed inner)])
    | some (.table origin entries) => do
      let inner ← within change path entries
      some (t.replace part (.table origin inner))
    | some (.tables elements) => do
      let inner ← within change path (elements.getLastD [])
      some (t.replace part (.tables (elements.dropLast ++ [inner])))
    | some (.value _) => none

end Entries

/-- A dotted key with its value. -/
structure Pair where
  /-- The parts of the key before the last. -/
  path : List String
  /-- The last part of the key. -/
  key : String
  /-- The value. -/
  datum : Datum

/-- A header with the pairs that follow it. -/
structure Section where
  /-- Whether the header adds an element to a list of tables. -/
  isElement : Bool
  /-- The parts of the header's key before the last. -/
  path : List String
  /-- The last part of the header's key. -/
  key : String
  /-- The pairs below the header, in order. -/
  pairs : List Pair

/-- Puts pairs into a table, in order. -/
def Entries.fill (t : Entries) (pairs : List Pair) : Option Entries :=
  pairs.foldlM (fun t p => t.put true p.key p.datum p.path) t

/-- Puts a section into the table that holds it. -/
def Section.placeIn (s : Section) (parent : Entries) : Option Entries :=
  match s.isElement, parent.lookup s.key with
  | true, none => do
    let t ← Entries.fill [] s.pairs
    some (parent ++ [(s.key, .tables [t])])
  | true, some (.tables elements) => do
    let t ← Entries.fill [] s.pairs
    some (parent.replace s.key (.tables (elements ++ [t])))
  | false, none => do
    let t ← Entries.fill [] s.pairs
    some (parent ++ [(s.key, .table .header t)])
  | false, some (.table .passed entries) => do
    let t ← Entries.fill entries s.pairs
    some (parent.remove s.key ++ [(s.key, .table .header t)])
  | _, _ => none

/-- Puts a section where its header says. -/
def Section.place (root : Entries) (s : Section) : Option Entries :=
  root.within s.placeIn s.path

/-! ### From entries to data -/

mutual

/-- The data that a node stands for. -/
def Node.toDatum : Node → Datum
  | .value datum => datum
  | .table _ entries => .table (entriesToData entries)
  | .tables elements => .list (elementsToData elements)

/-- The data that entries stand for. -/
def entriesToData : List (String × Node) → List (String × Datum)
  | [] => []
  | (key, node) :: rest => (key, node.toDatum) :: entriesToData rest

/-- The tables that the elements of a list stand for. -/
def elementsToData : List (List (String × Node)) → List Datum
  | [] => []
  | entries :: rest => .table (entriesToData entries) :: elementsToData rest

end

/-- The document of a list of pairs before the first header and the sections after it. -/
def assemble? (top : List Pair) (sections : List Section) : Option Document := do
  let root ← Entries.fill [] top
  let root ← sections.foldlM Section.place root
  some (entriesToData root)

end LedSequencer.Document
