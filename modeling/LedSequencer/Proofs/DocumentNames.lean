import LedSequencer.Document.Reader
import Mathlib.Data.List.Nodup

/-! # Names of documents

  A document that says something twice cannot be read. So the top-level names of a
  document that was read are all different (`nodup_names_of_read`): while a document is
  assembled, a node comes under a name that is free, or in the place of the node that
  has the name.
-/

namespace LedSequencer.Document

namespace Entries

/-- No name stands for two nodes. -/
def IsDistinct (t : Entries) : Prop := (t.map Prod.fst).Nodup

/-- A change of entries after which no name stands for two nodes, if none did before. -/
def KeepsDistinct (change : Entries → Option Entries) : Prop :=
  ∀ t t', t.IsDistinct → change t = some t' → t'.IsDistinct

variable {t : Entries} {key : String}

theorem isDistinct_nil : IsDistinct [] := List.nodup_nil

/-- A node in the place of another one has its name. -/
theorem map_fst_replace (key : String) (node : Node) (t : Entries) :
    (t.replace key node).map Prod.fst = t.map Prod.fst := by
  unfold replace
  rw [List.map_map]
  apply List.map_congr_left
  intro entry _
  by_cases h : entry.1 = key <;> simp [h]

theorem IsDistinct.replace (h : t.IsDistinct) (key : String) (node : Node) :
    IsDistinct (t.replace key node) := by
  unfold IsDistinct at h ⊢
  rw [map_fst_replace]
  exact h

/-- A name that is free can be given to a node. -/
theorem IsDistinct.append (h : t.IsDistinct) (hkey : key ∉ t.map Prod.fst) (node : Node) :
    IsDistinct (t ++ [(key, node)]) := by
  unfold IsDistinct at h ⊢
  rw [List.map_append, List.map_singleton, ← List.concat_eq_append]
  exact h.concat hkey

/-- A name under which nothing is found is free. -/
theorem notMem_of_lookup (h : t.lookup key = none) : key ∉ t.map Prod.fst := by
  intro hmem
  obtain ⟨entry, hentry, hname⟩ := List.mem_map.1 hmem
  have hne := List.lookup_eq_none_iff.1 h entry hentry
  simp [hname] at hne

/-- A name that has been taken out is free. -/
theorem notMem_remove (key : String) (t : Entries) : key ∉ (t.remove key).map Prod.fst := by
  simp [remove]

theorem IsDistinct.remove (h : t.IsDistinct) (key : String) : IsDistinct (t.remove key) :=
  List.Nodup.sublist (List.filter_sublist.map Prod.fst) h

/-- A change that gives a free name to a node, if the node can be made. -/
theorem IsDistinct.append_of_bind {α : Type} {inner? : Option α} {node : α → Node} {t' : Entries}
    (h : t.IsDistinct) (hkey : key ∉ t.map Prod.fst)
    (hdone : (inner?.bind fun inner => some (t ++ [(key, node inner)])) = some t') :
    t'.IsDistinct := by
  obtain ⟨inner, _, hinner⟩ := Option.bind_eq_some_iff.1 hdone
  cases hinner
  exact h.append hkey (node inner)

/-- A change that puts a node in the place of another one, if the node can be made. -/
theorem IsDistinct.replace_of_bind {α : Type} {inner? : Option α} {node : α → Node} {t' : Entries}
    (h : t.IsDistinct)
    (hdone : (inner?.bind fun inner => some (t.replace key (node inner))) = some t') :
    t'.IsDistinct := by
  obtain ⟨inner, _, hinner⟩ := Option.bind_eq_some_iff.1 hdone
  cases hinner
  exact h.replace key (node inner)

theorem keepsDistinct_put (mayEnd : Bool) (key : String) (datum : Datum) (path : List String) :
    KeepsDistinct (put mayEnd key datum path) := by
  intro t t' h hput
  cases path with
  | nil =>
    simp only [put] at hput
    split at hput
    · next hfree =>
      have hnone := Option.isNone_iff_eq_none.1 (Bool.and_eq_true_iff.1 hfree).2
      cases hput
      exact h.append (notMem_of_lookup hnone) _
    · cases hput
  | cons part path =>
    simp only [put] at hput
    -- the name is free, it leads on, or it stands for something complete
    split at hput
    · next hnone => exact h.append_of_bind (notMem_of_lookup hnone) hput
    · cases hput
    · exact h.replace_of_bind hput
    · exact h.replace_of_bind hput
    · cases hput

theorem keepsDistinct_within {change : Entries → Option Entries} (hchange : KeepsDistinct change)
    (path : List String) : KeepsDistinct (within change path) := by
  intro t t' h hwithin
  cases path with
  | nil => exact hchange t t' h hwithin
  | cons part path =>
    simp only [within] at hwithin
    split at hwithin
    · next hnone => exact h.append_of_bind (notMem_of_lookup hnone) hwithin
    · exact h.replace_of_bind hwithin
    · exact h.replace_of_bind hwithin
    · cases hwithin

/-- Changes that are made one after the other. -/
theorem IsDistinct.foldlM {α : Type} {change : Entries → α → Option Entries}
    (hchange : ∀ a, KeepsDistinct fun t => change t a) {as : List α} {t' : Entries}
    (h : t.IsDistinct) (hdone : as.foldlM change t = some t') : t'.IsDistinct := by
  induction as generalizing t with
  | nil =>
    cases hdone
    exact h
  | cons a rest ih =>
    obtain ⟨next, hnext, hrest⟩ := Option.bind_eq_some_iff.1 hdone
    exact ih (hchange a t next h hnext) hrest

end Entries

/-- A section comes under a free name, in the place of what has its name, or at the end when its
    table was passed before. -/
theorem Section.keepsDistinct_placeIn (s : Section) : Entries.KeepsDistinct s.placeIn := by
  intro t t' h hplace
  unfold Section.placeIn at hplace
  split at hplace
  · next hnone => exact h.append_of_bind (Entries.notMem_of_lookup hnone) hplace
  · exact h.replace_of_bind hplace
  · next hnone => exact h.append_of_bind (Entries.notMem_of_lookup hnone) hplace
  · exact (h.remove s.key).append_of_bind (Entries.notMem_remove s.key t) hplace
  · cases hplace

/-- Data have the names of their entries. -/
theorem map_fst_entriesToData (t : Entries) :
    (entriesToData t).map Prod.fst = t.map Prod.fst := by
  induction t with
  | nil => simp [entriesToData]
  | cons entry rest ih => simp [entriesToData, ih]

theorem nodup_names_of_assemble {top : List Pair} {sections : List Section} {document : Document}
    (h : assemble? top sections = some document) : (document.map Prod.fst).Nodup := by
  obtain ⟨filled, hfilled, hrest⟩ := Option.bind_eq_some_iff.1 h
  obtain ⟨placed, hplaced, hdone⟩ := Option.bind_eq_some_iff.1 hrest
  cases hdone
  -- first the entries before any section, then one section after the other
  have hfill : filled.IsDistinct := by
    apply Entries.isDistinct_nil.foldlM _ hfilled
    intro p
    exact Entries.keepsDistinct_put true p.key p.datum p.path
  have hplace : placed.IsDistinct := by
    apply hfill.foldlM _ hplaced
    intro s
    exact Entries.keepsDistinct_within s.keepsDistinct_placeIn s.path
  rw [map_fst_entriesToData]
  exact hplace

/-- The top-level names of a document that was read are all different. -/
theorem nodup_names_of_read {text : String} {document : Document}
    (h : read? text = some document) : (document.map Prod.fst).Nodup := by
  obtain ⟨lines, _, hrest⟩ := Option.bind_eq_some_iff.1 h
  obtain ⟨entries, hentries, hsettled⟩ := Option.bind_eq_some_iff.1 hrest
  rw [Datum.map_fst_settleEntries? hsettled]
  exact nodup_names_of_assemble hentries

end LedSequencer.Document
