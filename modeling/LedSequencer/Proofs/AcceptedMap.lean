import LedSequencer.Proofs.ValidDocuments
import Mathlib.Data.List.Nodup

/-! # Accepted channel maps

  A document that describes a channel map gives a channel for each entry, with the value
  of the entry as its pin. No number comes twice in such a document, so no pin comes
  twice in a channel map that was read.
-/

namespace LedSequencer

/-- The channels of a section have the numbers of its entries. -/
theorem integers_of_channels {entries : List (String × Datum)} {channels : List Channel}
    (h : List.Forall₂ Channel.IsOf entries channels) :
    (entries.filterMap fun e => e.2.integer?) =
      (channels.map Channel.pin).map fun pin => (pin.number.toNat : Int) := by
  induction h with
  | nil => rfl
  | @cons e channel entries channels hof _ ih =>
    have hvalue : e.2.integer? = some (channel.pin.number.toNat : Int) :=
      Datum.integer?_eq_some_iff.2 hof.2
    simp only [List.filterMap_cons, hvalue, ih, List.map_cons]

/-- The pins of LEDs are the numbers of their document, in order. -/
theorem integers_of_leds {document : Document} {leds : List Led}
    (h : List.Forall₂ Led.IsOf document leds) :
    (document.assignments.filterMap fun a => a.datum.integer?) =
      (leds.flatMap Led.pins).map fun pin => (pin.number.toNat : Int) := by
  induction h with
  | nil => rfl
  | @cons s led document leds hof hrest ih =>
    obtain ⟨_, entries, hentries, hchannels⟩ := hof
    have hassignments : Document.assignments (s :: document) =
        entries.map (.ofEntry s.1) ++ Document.assignments document := by
      rw [Document.assignments, List.flatMap_cons, hentries]
      rfl
    rw [hassignments, List.filterMap_append, List.filterMap_map, ih, List.flatMap_cons,
      List.map_append]
    congr 1
    exact integers_of_channels hchannels

/-- A channel map that a document describes names no pin twice. -/
theorem ChannelMap.nodup_pins_of_ofDocument {document : Document} {map : ChannelMap}
    (h : ChannelMap.ofDocument document = .ok map) : map.pins.Nodup := by
  obtain ⟨⟨_, hfaultless⟩, hleds⟩ := (ChannelMap.ofDocument_verdict document).2 map h
  -- the numbers of the document are those of the pins, and they are all different
  have hnumbers := hfaultless.pins
  rw [integers_of_leds hleds] at hnumbers
  exact List.Nodup.of_map _ hnumbers

/-- What a text that describes a channel map says. -/
theorem ChannelMap.read_of_ofText {text : String} {map : ChannelMap}
    (h : ChannelMap.ofText text = .ok map) :
    ∃ document, Document.read? text = some document ∧ ChannelMap.ofDocument document = .ok map := by
  unfold ChannelMap.ofText at h
  cases hread : Document.read? text with
  | none =>
    rw [hread] at h
    cases h
  | some document =>
    rw [hread] at h
    exact ⟨document, rfl, h⟩

/-- A channel map that a text describes names no pin twice. -/
theorem ChannelMap.nodup_pins_of_ofText {text : String} {map : ChannelMap}
    (h : ChannelMap.ofText text = .ok map) : map.pins.Nodup := by
  obtain ⟨document, _, hdocument⟩ := ChannelMap.read_of_ofText h
  exact ChannelMap.nodup_pins_of_ofDocument hdocument

end LedSequencer
