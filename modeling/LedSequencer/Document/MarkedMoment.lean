import LedSequencer.Document
import LedSequencer.Document.Moment

/-! # Moments in tables

  Below the top of a document a moment may also be written as a table: its first
  name is a mark, and the text under the mark is the moment. Whatever else is in
  such a table counts for nothing. A mark with anything but the text of a moment
  under it makes the document malformed; a mark that is not the first name of its
  table is a name like others.
-/

namespace LedSequencer

/-- The name that marks a table as a moment. -/
def momentMark : String := "$__toml_private_datetime"

/-- What stands under the mark, if the entries start with it. -/
def marked? : List (String × Datum) → Option Datum
  | (key, datum) :: _ => if key = momentMark then some datum else none
  | [] => none

namespace Datum

/-- The moment that a text writes. -/
def moment? : Datum → Option Datum
  | .text value => if Document.isMoment value.toList then some (.moment value) else none
  | _ => none

mutual

/-- Puts moments in the place of the tables that stand for them. -/
def settle? : Datum → Option Datum
  | .list items => (settleItems? items).map .list
  | .table entries =>
    match marked? entries with
    | some datum => moment? datum
    | none => (settleEntries? entries).map .table
  | datum => some datum

/-- Settles the items of a list. -/
def settleItems? : List Datum → Option (List Datum)
  | [] => some []
  | item :: rest => do
    let item ← settle? item
    let rest ← settleItems? rest
    some (item :: rest)

/-- Settles the data of entries. -/
def settleEntries? : List (String × Datum) → Option (List (String × Datum))
  | [] => some []
  | (key, datum) :: rest => do
    let datum ← settle? datum
    let rest ← settleEntries? rest
    some ((key, datum) :: rest)

end

end Datum

/-! ### Small laws -/

/-- A table that starts with the mark of a moment is that moment, whatever follows. -/
theorem Datum.settle?_table_of_isMoment {text : String} {rest : List (String × Datum)}
    (h : Document.isMoment text.toList = true) :
    Datum.settle? (.table ((momentMark, .text text) :: rest)) = some (.moment text) := by
  simp only [Datum.settle?, marked?, if_pos, Datum.moment?, h]

/-- Settling keeps the names of entries and their order. -/
theorem Datum.map_fst_settleEntries? {entries settled : List (String × Datum)}
    (h : Datum.settleEntries? entries = some settled) :
    settled.map Prod.fst = entries.map Prod.fst := by
  induction entries generalizing settled with
  | nil =>
    rw [Datum.settleEntries?] at h
    injection h with h
    subst h
    rfl
  | cons entry rest ih =>
    obtain ⟨key, datum⟩ := entry
    simp only [Datum.settleEntries?, Option.bind_eq_bind, Option.bind_eq_some_iff] at h
    obtain ⟨_, _, settledRest, hRest, h⟩ := h
    injection h with h
    subst h
    simp [ih hRest]

end LedSequencer
