import LedSequencer.ChannelMap.Validation
import Mathlib.Data.List.Forall2
import Mathlib.Data.List.Induction
import Mathlib.Data.List.Pairwise

/-! # Faults of documents

  What a document must be to describe a channel map, and which fault counts when it is
  not. Neither is said in terms of the reading: a document is faultless when five
  conditions hold of it as a whole, and its first fault stands right after the longest
  beginning that is faultless.

  * **Contents**: the entries of a document in order, and the channels they give.
  * **Faults**: faultless documents, and the first fault of any other one.
  * **One entry**: what an entry adds to a faultless beginning, or which fault it has.
  * **One section**: the first fault is in the first section, or else after it.
-/

namespace LedSequencer

/-! ### Contents -/

/-- The whole number that a datum is. -/
def Datum.integer? : Datum → Option Int
  | .integer value => some value
  | _ => none

/-- The entries that a top-level datum has as a section. -/
def Datum.entries : Datum → List (String × Datum)
  | .table entries => entries
  | _ => []

/-- The characters of a key in lower case. -/
def lowerKey (key : String) : List Char := key.toList.map Char.toLower

/-- Whether a key is a single ASCII letter. -/
def IsLetter (key : String) : Prop := ∃ c, key.toList = [c] ∧ c.isAlpha = true

/-- An entry of a section, with the name of the section. -/
structure Assignment where
  /-- The name of the section. -/
  led : String
  /-- The key of the entry. -/
  key : String
  /-- The value of the entry. -/
  datum : Datum

/-- An entry of the section with the given name. -/
def Assignment.ofEntry (led : String) (entry : String × Datum) : Assignment :=
  { led, key := entry.1, datum := entry.2 }

/-- The entries of all sections of a document, in order. -/
def Document.assignments (document : Document) : List Assignment :=
  document.flatMap fun s => s.2.entries.map (.ofEntry s.1)

/-- An entry gives a channel: its letter is the key in lower case and its pin the value. -/
def Channel.IsOf (entry : String × Datum) (channel : Channel) : Prop :=
  lowerKey entry.1 = [channel.letter] ∧ entry.2 = .integer channel.pin.number.toNat

/-- A section gives an LED: it has the name of the section, and a channel for each entry in
    order. -/
def Led.IsOf (s : String × Datum) (led : Led) : Prop :=
  led.name = s.1 ∧ ∃ entries, s.2 = .table entries ∧
    List.Forall₂ Channel.IsOf entries led.channels

/-! ### Faults -/

namespace Document

/-- Nothing in a document keeps it from describing LEDs. -/
structure IsFaultless (document : Document) : Prop where
  /-- Every top-level name stands for a table. -/
  sections : ∀ s ∈ document, ∃ entries, s.2 = .table entries
  /-- Every key is a single ASCII letter. -/
  keys : ∀ a ∈ document.assignments, IsLetter a.key
  /-- No two keys of a section are the same letter, in whatever case. -/
  letters : ∀ s ∈ document, (s.2.entries.map fun e => lowerKey e.1).Nodup
  /-- Every value is a whole number from 0 to 27. -/
  values : ∀ a ∈ document.assignments, ∃ n : Nat, n ≤ 27 ∧ a.datum = .integer n
  /-- No number comes twice in the whole document. -/
  pins : (document.assignments.filterMap fun a => a.datum.integer?).Nodup

/-- A document describes a channel map. -/
def IsValid (document : Document) : Prop := document ≠ [] ∧ document.IsFaultless

/-- A letter is new to a section that has the given entries so far. -/
def IsNewLetter (earlier : List (String × Datum)) (c : Char) : Prop :=
  c.isAlpha = true ∧ ∀ e ∈ earlier, lowerKey e.1 ≠ [c.toLower]

/-- The fault of an entry. `before` are the sections before that of the entry, which is `led` and
    has the `earlier` entries so far. The conditions are looked at in the order of the errors, and
    the first that fails decides. -/
inductive EntryFault (before : Document) (led : String) (earlier : List (String × Datum))
    (key : String) (datum : Datum) : ConfigError → Prop where
  | invalidChannel (hkey : ¬ IsLetter key) :
      EntryFault before led earlier key datum (.invalidChannel led key)
  | duplicateChannel (c : Char) (hkey : key.toList = [c]) (hc : c.isAlpha = true)
      (hearlier : ∃ e ∈ earlier, lowerKey e.1 = [c.toLower]) :
      EntryFault before led earlier key datum (.duplicateChannel led c.toLower)
  | invalidPin (c : Char) (hkey : key.toList = [c]) (hc : IsNewLetter earlier c)
      (hdatum : datum.integer? = none) :
      EntryFault before led earlier key datum (.invalidPin led c.toLower)
  | pinOutOfRange (c : Char) (hkey : key.toList = [c]) (hc : IsNewLetter earlier c) (value : Int)
      (hdatum : datum = .integer value) (hvalue : value < 0 ∨ 27 < value) :
      EntryFault before led earlier key datum (.pinOutOfRange led c.toLower value)
  | duplicatePin (c : Char) (hkey : key.toList = [c]) (hc : IsNewLetter earlier c) (pin : Pin)
      (hdatum : datum = .integer pin.number.toNat) (hpin : pin.number.toNat ≤ 27)
      (owner : Assignment) (letter : Char)
      (howner : owner ∈ Document.assignments (before ++ [(led, .table earlier)]))
      (hsame : owner.datum = datum) (hletter : lowerKey owner.key = [letter])
      (hunique : ∀ a ∈ Document.assignments (before ++ [(led, .table earlier)]),
        a.datum = datum → a = owner) :
      EntryFault before led earlier key datum
        (.duplicatePin pin (channelName owner.led letter) (channelName led c.toLower))

/-- The first fault of a document that begins with the sections `before` and goes on with others:
    everything in front of it is faultless. It is a top-level name that stands for no table, or it
    is in an entry. -/
inductive FaultAfter (before rest : Document) : ConfigError → Prop where
  | notASection (between : Document) (name : String) (datum : Datum) (after : Document)
      (hrest : rest = between ++ (name, datum) :: after)
      (hfaultless : IsFaultless (before ++ between)) (hdatum : ∀ entries, datum ≠ .table entries) :
      FaultAfter before rest (.notASection name)
  | entry (between : Document) (led : String) (earlier : List (String × Datum)) (key : String)
      (datum : Datum) (later : List (String × Datum)) (after : Document) (error : ConfigError)
      (hrest : rest = between ++ (led, .table (earlier ++ (key, datum) :: later)) :: after)
      (hfaultless : IsFaultless ((before ++ between) ++ [(led, .table earlier)]))
      (hfault : EntryFault (before ++ between) led earlier key datum error) :
      FaultAfter before rest error

/-- The first fault of a document; that it is empty is the fault of an empty one. -/
def FirstFault (document : Document) (error : ConfigError) : Prop :=
  document = [] ∧ error = .noLeds ∨ FaultAfter [] document error

end Document

/-! ### One entry -/

theorem Datum.integer?_eq_some_iff {datum : Datum} {n : Int} :
    datum.integer? = some n ↔ datum = .integer n := by
  cases datum <;> simp [Datum.integer?]

namespace Document

theorem assignments_append (document more : Document) :
    Document.assignments (document ++ more) = document.assignments ++ more.assignments :=
  List.flatMap_append

theorem assignments_section (before : Document) (led : String) (entries : List (String × Datum)) :
    Document.assignments (before ++ [(led, .table entries)]) =
      before.assignments ++ entries.map (.ofEntry led) := by
  rw [assignments_append]
  simp [assignments, Datum.entries]

/-- What it takes for a document with one more section to be faultless. -/
theorem isFaultless_section_iff {before : Document} {led : String}
    {entries : List (String × Datum)} :
    IsFaultless (before ++ [(led, .table entries)]) ↔ before.IsFaultless ∧
      (∀ e ∈ entries, IsLetter e.1) ∧ (entries.map fun e => lowerKey e.1).Nodup ∧
      (∀ e ∈ entries, ∃ n : Nat, n ≤ 27 ∧ e.2 = .integer n) ∧
      ((before.assignments.filterMap fun a => a.datum.integer?) ++
        entries.filterMap fun e => e.2.integer?).Nodup := by
  have hnumbers : (Document.assignments (before ++ [(led, .table entries)])).filterMap
      (fun a => a.datum.integer?) = (before.assignments.filterMap fun a => a.datum.integer?) ++
        entries.filterMap fun e => e.2.integer? := by
    rw [assignments_section, List.filterMap_append, List.filterMap_map]
    rfl
  constructor
  · intro h
    have hkeys := h.keys
    have hvalues := h.values
    have hpins := h.pins
    rw [assignments_section, List.forall_mem_append, List.forall_mem_map] at hkeys hvalues
    rw [hnumbers] at hpins
    refine ⟨⟨?_, hkeys.1, ?_, hvalues.1, (List.nodup_append.1 hpins).1⟩, hkeys.2, ?_, hvalues.2,
      hpins⟩
    · exact (List.forall_mem_append.1 h.sections).1
    · exact (List.forall_mem_append.1 h.letters).1
    · exact h.letters (led, .table entries) (List.mem_append_right _ (List.mem_singleton.2 rfl))
  · rintro ⟨h, hkeys, hletters, hvalues, hpins⟩
    refine ⟨?_, ?_, ?_, ?_, hnumbers ▸ hpins⟩
    · exact List.forall_mem_append.2 ⟨h.sections, by simp⟩
    · rw [assignments_section, List.forall_mem_append, List.forall_mem_map]
      exact ⟨h.keys, hkeys⟩
    · refine List.forall_mem_append.2 ⟨h.letters, ?_⟩
      rw [List.forall_mem_singleton]
      exact hletters
    · rw [assignments_section, List.forall_mem_append, List.forall_mem_map]
      exact ⟨h.values, hvalues⟩

theorem isFaultless_empty_section_iff {before : Document} {led : String} :
    IsFaultless (before ++ [(led, .table [])]) ↔ before.IsFaultless := by
  rw [isFaultless_section_iff]
  constructor
  · exact And.left
  · intro h
    simpa using ⟨h, h.pins⟩

/-- The beginning of a faultless document is faultless. -/
theorem IsFaultless.of_append {document more : Document} (h : IsFaultless (document ++ more)) :
    document.IsFaultless := by
  obtain ⟨hsections, hkeys, hletters, hvalues, hpins⟩ := h
  rw [assignments_append, List.forall_mem_append] at hkeys hvalues
  rw [assignments_append, List.filterMap_append] at hpins
  exact ⟨(List.forall_mem_append.1 hsections).1, hkeys.1, (List.forall_mem_append.1 hletters).1,
    hvalues.1, (List.nodup_append.1 hpins).1⟩

/-- What it takes for a document with one more entry to be faultless: a letter that is new to the
    section, and a number in range that is new to the document. -/
theorem isFaultless_entry_iff {before : Document} {led : String}
    {earlier : List (String × Datum)} {key : String} {datum : Datum} :
    IsFaultless (before ++ [(led, .table (earlier ++ [(key, datum)]))]) ↔
      IsFaultless (before ++ [(led, .table earlier)]) ∧ IsLetter key ∧
      (∀ e ∈ earlier, lowerKey e.1 ≠ lowerKey key) ∧
      ∃ n : Nat, n ≤ 27 ∧ datum = .integer n ∧
        ∀ a ∈ Document.assignments (before ++ [(led, .table earlier)]), a.datum ≠ datum := by
  -- the number of the entry is new when no assignment before it has the same value
  have hnew (n : Int) : (∀ a ∈ Document.assignments (before ++ [(led, .table earlier)]),
      a.datum ≠ .integer n) ↔ n ∉ (before.assignments.filterMap fun a => a.datum.integer?) ++
        earlier.filterMap fun e => e.2.integer? := by
    rw [assignments_section, List.forall_mem_append, List.forall_mem_map]
    simp only [List.mem_append, List.mem_filterMap, Datum.integer?_eq_some_iff, not_or, not_exists,
      not_and]
    rfl
  have hnodup : ((earlier ++ [(key, datum)]).map fun e => lowerKey e.1).Nodup ↔
      (earlier.map fun e => lowerKey e.1).Nodup ∧ ∀ e ∈ earlier, lowerKey e.1 ≠ lowerKey key := by
    rw [List.map_append, List.nodup_append, List.forall_mem_map]
    simp
  rw [isFaultless_section_iff, isFaultless_section_iff, hnodup, List.forall_mem_append,
    List.forall_mem_append, List.forall_mem_singleton, List.forall_mem_singleton,
    List.filterMap_append, ← List.append_assoc, List.nodup_append]
  constructor
  · rintro ⟨h, ⟨hkeys, hkey⟩, ⟨hletters, hletter⟩, ⟨hvalues, n, hn, hdatum⟩, hpins, _, hpin⟩
    have hdatum : datum = .integer n := hdatum
    subst hdatum
    refine ⟨⟨h, hkeys, hletters, hvalues, hpins⟩, hkey, hletter, n, hn, rfl, (hnew n).2 ?_⟩
    intro hmem
    exact hpin _ hmem n (List.mem_singleton.2 rfl) rfl
  · rintro ⟨⟨h, hkeys, hletters, hvalues, hpins⟩, hkey, hletter, n, hn, rfl, hpin⟩
    refine ⟨h, ⟨hkeys, hkey⟩, ⟨hletters, hletter⟩, ⟨hvalues, n, hn, rfl⟩, hpins, ?_, ?_⟩
    · exact List.pairwise_singleton _ _
    · rintro m hm m' hm' rfl
      obtain rfl := List.mem_singleton.1 hm'
      exact (hnew n).1 hpin hm

/-- A section of a faultless document is faultless up to any of its entries. -/
theorem IsFaultless.of_entries {before : Document} {led : String}
    {earlier more : List (String × Datum)}
    (h : IsFaultless (before ++ [(led, .table (earlier ++ more))])) :
    IsFaultless (before ++ [(led, .table earlier)]) := by
  induction more using List.reverseRecOn with
  | nil =>
    rw [List.append_nil] at h
    exact h
  | append_singleton more e ih =>
    rw [← List.append_assoc] at h
    exact ih (isFaultless_entry_iff.1 h).1

/-- With an entry at fault, a document is not faultless. -/
theorem EntryFault.not_isFaultless {before : Document} {led : String}
    {earlier : List (String × Datum)} {key : String} {datum : Datum} {error : ConfigError}
    (h : EntryFault before led earlier key datum error) :
    ¬ IsFaultless (before ++ [(led, .table (earlier ++ [(key, datum)]))]) := by
  rw [isFaultless_entry_iff]
  rintro ⟨_, hkey, hletter, n, hn, hdatum, hnew⟩
  cases h with
  | invalidChannel hbad => exact hbad hkey
  | duplicateChannel c hc halpha hearlier =>
    obtain ⟨e, he, hsame⟩ := hearlier
    apply hletter e he
    rw [hsame, lowerKey, hc]
    rfl
  | invalidPin c hc hfresh hnone =>
    rw [hdatum] at hnone
    cases hnone
  | pinOutOfRange c hc hfresh value hvalue hrange =>
    rw [hdatum] at hvalue
    cases hvalue
    omega
  | duplicatePin c hc hfresh pin hpin hrange owner letter howner hsame _ _ =>
    exact hnew owner howner hsame

/-- In a faultless document, an entry is the only one with its number. -/
theorem IsFaultless.eq_of_datum {document : Document} (h : document.IsFaultless)
    {a b : Assignment} (ha : a ∈ document.assignments) (hb : b ∈ document.assignments) {n : Int}
    (hna : a.datum = .integer n) (hnb : b.datum = .integer n) : a = b := by
  have hpins := h.pins
  rw [List.Nodup, List.pairwise_filterMap] at hpins
  have hsymm : Std.Symm fun a b : Assignment => ∀ m, a.datum.integer? = some m →
      ∀ m', b.datum.integer? = some m' → m ≠ m' :=
    ⟨fun _ _ hne m hm m' hm' => (hne m' hm' m hm).symm⟩
  -- two different entries with one number would be two equal numbers in the list
  by_contra hne
  exact hpins.forall ha hb hne n (Datum.integer?_eq_some_iff.2 hna) n
    (Datum.integer?_eq_some_iff.2 hnb) rfl

/-! ### One section -/

variable {before rest : Document} {led : String} {error : ConfigError}

theorem not_faultAfter_nil : ¬ FaultAfter before [] error := by
  intro h
  cases h with
  | notASection between _ _ _ hrest => simp at hrest
  | entry between _ _ _ _ _ _ _ hrest => simp at hrest

/-- The first fault is in the first section, or after it when that is faultless. -/
theorem faultAfter_cons_iff {s : String × Datum} :
    FaultAfter before (s :: rest) error ↔
      FaultAfter before [s] error ∨
        IsFaultless (before ++ [s]) ∧ FaultAfter (before ++ [s]) rest error := by
  constructor
  · intro h
    cases h with
    | notASection between name datum after hrest hfaultless hdatum =>
      cases between with
      | nil =>
        cases hrest
        exact .inl (.notASection [] name datum [] rfl hfaultless hdatum)
      | cons first between =>
        cases hrest
        rw [List.append_cons before] at hfaultless
        refine .inr ⟨hfaultless.of_append, ?_⟩
        exact .notASection between name datum after rfl hfaultless hdatum
    | entry between led earlier key datum later after _ hrest hfaultless hfault =>
      cases between with
      | nil =>
        cases hrest
        exact .inl (.entry [] led earlier key datum later [] error rfl hfaultless hfault)
      | cons first between =>
        cases hrest
        rw [List.append_cons before s between] at hfaultless hfault
        refine .inr ⟨hfaultless.of_append.of_append, ?_⟩
        exact .entry between led earlier key datum later after error rfl hfaultless hfault
  · rintro (h | ⟨_, h⟩)
    · cases h with
      | notASection between name datum after hrest hfaultless hdatum =>
        refine .notASection between name datum (after ++ rest) ?_ hfaultless hdatum
        rw [← List.singleton_append, hrest, List.append_assoc, List.cons_append]
      | entry between led earlier key datum later after _ hrest hfaultless hfault =>
        refine .entry between led earlier key datum later (after ++ rest) error ?_ hfaultless hfault
        rw [← List.singleton_append, hrest, List.append_assoc, List.cons_append]
    · cases h with
      | notASection between name datum after hrest hfaultless hdatum =>
        rw [List.append_assoc, List.singleton_append] at hfaultless
        exact .notASection (s :: between) name datum after (by rw [hrest]; rfl) hfaultless hdatum
      | entry between led earlier key datum later after _ hrest hfaultless hfault =>
        rw [List.append_assoc before, List.singleton_append] at hfaultless hfault
        exact .entry (s :: between) led earlier key datum later after error (by rw [hrest]; rfl)
          hfaultless hfault

/-- The first fault of a section is that of its first entry with a fault. -/
theorem faultAfter_section_iff {entries : List (String × Datum)} :
    FaultAfter before [(led, .table entries)] error ↔
      ∃ mid key datum later, entries = mid ++ (key, datum) :: later ∧
        IsFaultless (before ++ [(led, .table mid)]) ∧
        EntryFault before led mid key datum error := by
  constructor
  · intro h
    cases h with
    | notASection between name datum after hrest hfaultless hdatum =>
      cases between with
      | nil =>
        cases hrest
        exact absurd rfl (hdatum entries)
      | cons first between => simp at hrest
    | entry between led' earlier key datum later after _ hrest hfaultless hfault =>
      cases between with
      | nil =>
        cases hrest
        rw [List.append_nil] at hfaultless hfault
        exact ⟨earlier, key, datum, later, rfl, hfaultless, hfault⟩
      | cons first between => simp at hrest
  · rintro ⟨mid, key, datum, later, rfl, hmid, hfault⟩
    rw [← List.append_nil before] at hmid hfault
    exact .entry [] led mid key datum later [] error rfl hmid hfault

/-- The first fault of a top-level name that stands for no table is just that. -/
theorem faultAfter_other_iff {datum : Datum} (hdatum : ∀ entries, datum ≠ .table entries) :
    FaultAfter before [(led, datum)] error ↔ before.IsFaultless ∧ error = .notASection led := by
  constructor
  · intro h
    cases h with
    | notASection between name datum' after hrest hfaultless _ =>
      cases between with
      | nil =>
        cases hrest
        rw [List.append_nil] at hfaultless
        exact ⟨hfaultless, rfl⟩
      | cons first between => simp at hrest
    | entry between led' earlier key datum' later after _ hrest hfaultless hfault =>
      cases between with
      | nil =>
        cases hrest
        exact absurd rfl (hdatum _)
      | cons first between => simp at hrest
  · rintro ⟨hbefore, rfl⟩
    rw [← List.append_nil before] at hbefore
    exact .notASection [] led datum [] rfl hbefore hdatum

/-- A document with a fault is not faultless. -/
theorem FaultAfter.not_isFaultless (h : FaultAfter before rest error) :
    ¬ IsFaultless (before ++ rest) := by
  intro hall
  cases h with
  | notASection between name datum after hrest hfaultless hdatum =>
    obtain ⟨entries, hentries⟩ := hall.sections (name, datum) (by simp [hrest])
    exact hdatum entries hentries
  | entry between led earlier key datum later after _ hrest hfaultless hfault =>
    rw [hrest, ← List.append_assoc, List.append_cons, List.append_cons earlier] at hall
    exact hfault.not_isFaultless hall.of_append.of_entries

end Document

end LedSequencer
