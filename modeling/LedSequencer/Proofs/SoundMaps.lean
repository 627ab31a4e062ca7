import LedSequencer.Proofs.AcceptedMap
import LedSequencer.Proofs.DocumentNames

/-! # Sound channel maps

  The lookups of a channel map take the first match. In a sound map there is never a
  second one: no two LEDs share a name, no two channels of an LED a letter, and no two
  channels of the whole map a pin. A channel map that was read is sound
  (`isSound_of_ofText`), whatever its text is.
-/

namespace LedSequencer

/-! ### What a document gives -/

/-- LEDs have the names of their sections. -/
theorem names_of_leds {document : Document} {leds : List Led}
    (h : List.Forall₂ Led.IsOf document leds) : leds.map Led.name = document.map Prod.fst := by
  induction h with
  | nil => rfl
  | @cons s led document leds hof _ ih =>
    have hname : led.name = s.1 := hof.1
    simp only [List.map_cons, hname, ih]

/-- The letters of an LED are the keys of its section in lower case. -/
theorem letters_of_channels {entries : List (String × Datum)} {channels : List Channel}
    (h : List.Forall₂ Channel.IsOf entries channels) :
    (entries.map fun e => lowerKey e.1) =
      (channels.map Channel.letter).map fun letter => [letter] := by
  induction h with
  | nil => rfl
  | @cons e channel entries channels hof _ ih =>
    have hletter : lowerKey e.1 = [channel.letter] := hof.1
    simp only [List.map_cons, hletter, ih]

/-- Every LED is there for a section. -/
theorem exists_section_of_mem {document : Document} {leds : List Led}
    (h : List.Forall₂ Led.IsOf document leds) {led : Led} (hled : led ∈ leds) :
    ∃ s ∈ document, Led.IsOf s led := by
  induction h with
  | nil => cases hled
  | @cons s first document leds hof _ ih =>
    rcases List.mem_cons.1 hled with rfl | hrest
    · exact ⟨s, List.mem_cons_self, hof⟩
    · obtain ⟨s', hs', hof'⟩ := ih hrest
      exact ⟨s', List.mem_cons_of_mem s hs', hof'⟩

namespace ChannelMap

/-- Every lookup in a channel map has one answer at most. -/
structure IsSound (map : ChannelMap) : Prop where
  /-- There is an LED. -/
  nonempty : map.leds ≠ []
  /-- No two LEDs share a name. -/
  names : (map.leds.map Led.name).Nodup
  /-- No two channels of an LED share a letter. -/
  letters : ∀ led ∈ map.leds, (led.channels.map Channel.letter).Nodup
  /-- No two channels share a pin. -/
  pins : map.pins.Nodup
  /-- Every pin is one of the board. -/
  range : ∀ pin ∈ map.pins, pin.number.toNat ≤ Pin.highest

/-- A channel map that was read is sound. -/
theorem isSound_of_ofText {text : String} {map : ChannelMap} (h : ofText text = .ok map) :
    map.IsSound := by
  obtain ⟨document, hread, hdocument⟩ := read_of_ofText h
  obtain ⟨⟨hne, hfaultless⟩, hleds⟩ := (ofDocument_verdict document).2 map hdocument
  refine ⟨?_, ?_, ?_, nodup_pins_of_ofDocument hdocument, ?_⟩
  · intro hnil
    rw [hnil] at hleds
    cases hleds
    exact hne rfl
  · rw [names_of_leds hleds]
    exact Document.nodup_names_of_read hread
  · intro led hled
    obtain ⟨s, hs, _, entries, hentries, hchannels⟩ := exists_section_of_mem hleds hled
    have hletters := hfaultless.letters s hs
    have hsection : s.2.entries = entries := by
      rw [hentries]
      rfl
    rw [hsection, letters_of_channels hchannels] at hletters
    exact List.Nodup.of_map _ hletters
  · intro pin hpin
    -- the number of the pin is the value of an assignment
    have hnumber := List.mem_map_of_mem (f := fun pin : Pin => (pin.number.toNat : Int)) hpin
    have hsame := integers_of_leds hleds
    unfold ChannelMap.pins at hnumber
    rw [← hsame] at hnumber
    obtain ⟨a, ha, hvalue⟩ := List.mem_filterMap.1 hnumber
    obtain ⟨n, hn, hdatum⟩ := hfaultless.values a ha
    rw [Datum.integer?_eq_some_iff, hdatum] at hvalue
    injection hvalue with hvalue
    have hbound : pin.number.toNat = n := by omega
    rw [hbound]
    exact hn

end ChannelMap

/-! ### Looking things up -/

/-- The pin of a letter belongs to the channel of the letter, when there is but one. -/
theorem Led.pin?_eq_some_iff {led : Led} (hletters : (led.channels.map Channel.letter).Nodup)
    {c : Char} {pin : Pin} : led.pin? c = some pin ↔
      ∃ channel ∈ led.channels, channel.letter = c.toLower ∧ channel.pin = pin := by
  unfold Led.pin?
  rw [Option.map_eq_some_iff]
  constructor
  · intro h
    obtain ⟨channel, hfind, hpin⟩ := h
    have hletter := List.find?_some hfind
    rw [decide_eq_true_eq] at hletter
    exact ⟨channel, List.mem_of_find?_eq_some hfind, hletter, hpin⟩
  · intro h
    obtain ⟨channel, hchannel, hletter, hpin⟩ := h
    -- something is found, and no other channel has the letter
    cases hfind : led.channels.find? fun channel => channel.letter = c.toLower with
    | none =>
      have hnone := List.find?_eq_none.1 hfind channel hchannel
      rw [decide_eq_true_eq] at hnone
      exact absurd hletter hnone
    | some found =>
      have hsame := List.find?_some hfind
      rw [decide_eq_true_eq] at hsame
      have hfound := List.mem_of_find?_eq_some hfind
      have heq := List.inj_on_of_nodup_map hletters hfound hchannel (hsame.trans hletter.symm)
      exact ⟨found, rfl, heq ▸ hpin⟩

namespace ChannelMap

variable {map : ChannelMap}

/-- A name that is found is the name of the LED at that place. -/
theorem led?_of_find? {name : String} {i : Nat} (h : map.find? name = some i) :
    ∃ led, map.led? i = some led ∧ led.name = name := by
  obtain ⟨hi, hname, _⟩ := List.findIdx?_eq_some_iff_getElem.1 h
  rw [decide_eq_true_eq] at hname
  exact ⟨map.leds[i], List.getElem?_eq_getElem hi, hname⟩

theorem find?_eq_none_iff {name : String} :
    map.find? name = none ↔ ∀ led ∈ map.leds, led.name ≠ name := by
  unfold find?
  simp only [List.findIdx?_eq_none_iff, decide_eq_false_iff_not, ne_eq]

namespace IsSound

/-- Two places with the same name are one. -/
theorem eq_of_name (h : map.IsSound) {i j : Nat} {led led' : Led} (hi : map.led? i = some led)
    (hj : map.led? j = some led') (hname : led.name = led'.name) : i = j := by
  have hlt : i < (map.leds.map Led.name).length := by
    rw [List.length_map]
    exact (List.getElem?_eq_some_iff.1 hi).1
  apply (List.getElem?_inj hlt h.names).1
  have hi' : map.leds[i]? = some led := hi
  have hj' : map.leds[j]? = some led' := hj
  rw [List.getElem?_map, List.getElem?_map, hi', hj', Option.map_some, Option.map_some, hname]

/-- The name of an LED is found where the LED is. -/
theorem find?_name (h : map.IsSound) {i : Nat} {led : Led} (hi : map.led? i = some led) :
    map.find? led.name = some i := by
  cases hfind : map.find? led.name with
  | none => exact absurd rfl (find?_eq_none_iff.1 hfind led (List.mem_of_getElem? hi))
  | some j =>
    obtain ⟨led', hj, hname⟩ := led?_of_find? hfind
    rw [h.eq_of_name hj hi hname]

/-- Two LEDs that share a pin are one. -/
theorem eq_of_mem_pins (h : map.IsSound) {i j : Nat} {led led' : Led} {pin : Pin}
    (hi : map.led? i = some led) (hj : map.led? j = some led') (hpin : pin ∈ led.pins)
    (hpin' : pin ∈ led'.pins) : i = j := by
  have hdisjoint := (List.nodup_flatMap.1 h.pins).2
  rw [List.pairwise_iff_getElem] at hdisjoint
  obtain ⟨hilt, rfl⟩ := List.getElem?_eq_some_iff.1 hi
  obtain ⟨hjlt, rfl⟩ := List.getElem?_eq_some_iff.1 hj
  by_contra hne
  rcases Nat.lt_or_gt_of_ne hne with hlt | hlt
  · exact hdisjoint i j hilt hjlt hlt hpin hpin'
  · exact hdisjoint j i hjlt hilt hlt hpin' hpin

/-- No pin stands twice among those of an LED. -/
theorem nodup_pins (h : map.IsSound) {led : Led} (hled : led ∈ map.leds) : led.pins.Nodup :=
  (List.nodup_flatMap.1 h.pins).1 led hled

/-- There is an LED that is selected before any selector. -/
theorem exists_default (h : map.IsSound) : ∃ led, map.led? defaultLed = some led := by
  have hlength : defaultLed < map.leds.length := List.length_pos_iff.2 h.nonempty
  exact ⟨map.leds[defaultLed], List.getElem?_eq_getElem hlength⟩

end IsSound

end ChannelMap

end LedSequencer
