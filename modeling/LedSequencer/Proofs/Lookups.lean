import Mathlib
import LedSequencer.Proofs.SoundMaps

/-! # Lookups and contents

  In a channel map that was read, looking something up and listing what is there are
  inverse to each other (`lookups_invert_contents`): names and places of LEDs, letters
  and pins of channels. Letters are looked up in lower case, so characters that are no
  ASCII letters have no pin.
-/

namespace LedSequencer

namespace Led

variable {led : Led}

/-- The case of a letter does not matter. -/
theorem pin?_toLower (led : Led) (c : Char) : led.pin? c.toLower = led.pin? c := by
  unfold pin?
  rw [Char.toLower_toLower_eq_toLower]

theorem pin?_toUpper (led : Led) (c : Char) : led.pin? c.toUpper = led.pin? c := by
  unfold pin?
  rw [Char.toLower_toUpper_eq_toLower]

/-- A character with a pin is an ASCII letter. -/
theorem isAlpha_of_pin? {c : Char} {pin : Pin} (h : led.pin? c = some pin) : c.isAlpha = true := by
  unfold pin? at h
  obtain ⟨channel, hfind, _⟩ := Option.map_eq_some_iff.1 h
  have hletter := List.find?_some hfind
  rw [decide_eq_true_eq] at hletter
  have hlower := channel.letter_isLower
  rw [hletter, Char.isLower_toLower_eq_isAlpha] at hlower
  exact hlower

/-- Other characters than ASCII ones have no pin. -/
theorem pin?_eq_none_of_lt {c : Char} (h : 127 < c.toNat) : led.pin? c = none := by
  cases hpin : led.pin? c with
  | none => rfl
  | some pin =>
    have halpha := isAlpha_of_pin? hpin
    simp only [Char.isAlpha, Char.isUpper, Char.isLower, Bool.or_eq_true, Bool.and_eq_true,
      decide_eq_true_eq, ge_iff_le, UInt32.le_iff_toNat_le, Char.toNat_val] at halpha
    have hZ : 'Z'.toNat = 90 := rfl
    have hz : 'z'.toNat = 122 := rfl
    omega

end Led

namespace ChannelMap

/-- Different pins of the board number 28 at most. -/
theorem IsSound.length_pins {map : ChannelMap} (h : map.IsSound) : map.pins.length ≤ 28 := by
  have hnodup : (map.pins.map fun pin => pin.number.toNat).Nodup := by
    apply List.Nodup.map _ h.pins
    intro pin pin' hsame
    exact Pin.eq_of_toNat hsame
  have hsubset : (map.pins.map fun pin => pin.number.toNat) ⊆ List.range 28 := by
    intro n hn
    obtain ⟨pin, hpin, rfl⟩ := List.mem_map.1 hn
    have hrange : pin.number.toNat ≤ 27 := h.range pin hpin
    exact List.mem_range.2 (by omega)
  have hlength := (List.subperm_of_subset hnodup hsubset).length_le
  rw [List.length_map, List.length_range] at hlength
  exact hlength

/-- **Lookups are inverse to contents.** In a channel map that was read, the name of an LED is found
    at the place of the LED, and no other name is found. An LED has a pin for a character exactly
    when one of its channels has the lower case of the character as its letter, and it is the pin of
    that channel; in particular, only ASCII characters have a pin, and both cases of a letter have
    the same one. No pin stands for two channels, wherever they are. The LEDs are those of the
    document, in order, and their pins are listed in this order, each of them once. -/
theorem lookups_invert_contents {text : String} {map : ChannelMap} (h : ofText text = .ok map) :
    (∀ i led, map.led? i = some led → map.find? led.name = some i) ∧
    (∀ name, (∀ led ∈ map.leds, led.name ≠ name) → map.find? name = none) ∧
    (∀ led ∈ map.leds, ∀ c : Char,
      (∀ pin, led.pin? c = some pin ↔
        ∃ channel ∈ led.channels, channel.letter = c.toLower ∧ channel.pin = pin) ∧
      (127 < c.toNat → led.pin? c = none) ∧
      led.pin? c.toLower = led.pin? c ∧ led.pin? c.toUpper = led.pin? c) ∧
    (∀ i led j led', map.led? i = some led → map.led? j = some led' →
      ∀ channel ∈ led.channels, ∀ channel' ∈ led'.channels, channel.pin = channel'.pin →
        i = j ∧ channel.letter = channel'.letter) ∧
    (∃ document, Document.read? text = some document ∧
      List.Forall₂ Led.IsOf document map.leds) ∧
    map.pins = (map.leds.flatMap fun led => led.channels.map Channel.pin) ∧
    map.pins.Nodup ∧ (∀ pin ∈ map.pins, pin.number.toNat ≤ 27) ∧ map.pins.length ≤ 28 := by
  have hsound := isSound_of_ofText h
  have hinjective : ∀ i led j led', map.led? i = some led → map.led? j = some led' →
      ∀ channel ∈ led.channels, ∀ channel' ∈ led'.channels, channel.pin = channel'.pin →
        i = j ∧ channel.letter = channel'.letter := by
    intro i led j led' hi hj channel hchannel channel' hchannel' hpin
    have hmem : channel.pin ∈ led.pins := List.mem_map_of_mem hchannel
    have hmem' : channel.pin ∈ led'.pins := hpin ▸ List.mem_map_of_mem hchannel'
    have hij := hsound.eq_of_mem_pins hi hj hmem hmem'
    -- it is one LED, in which no pin stands twice
    subst hij
    have hsame : led = led' := Option.some.inj (hi.symm.trans hj)
    subst hsame
    have hnodup := hsound.nodup_pins (List.mem_of_getElem? hi)
    have heq := List.inj_on_of_nodup_map hnodup hchannel hchannel' hpin
    exact ⟨rfl, congrArg Channel.letter heq⟩
  have hdocument : ∃ document, Document.read? text = some document ∧
      List.Forall₂ Led.IsOf document map.leds := by
    obtain ⟨document, hread, hmap⟩ := read_of_ofText h
    exact ⟨document, hread, ((ofDocument_verdict document).2 map hmap).2⟩
  refine ⟨?_, ?_, ?_, hinjective, hdocument, rfl, hsound.pins, hsound.range, hsound.length_pins⟩
  · intro i led hi
    exact hsound.find?_name hi
  · intro name hname
    exact find?_eq_none_iff.2 hname
  · intro led hled c
    have hpin (pin : Pin) : led.pin? c = some pin ↔
        ∃ channel ∈ led.channels, channel.letter = c.toLower ∧ channel.pin = pin :=
      Led.pin?_eq_some_iff (hsound.letters led hled)
    exact ⟨hpin, Led.pin?_eq_none_of_lt, led.pin?_toLower c, led.pin?_toUpper c⟩

/-- Two lamps with three channels, one of which is given in upper case. -/
def threeChannels : String := "[desk]\nr = 4\nG = 17\n[shelf]\nr = 27\n"

/-- The LEDs of the two lamps. -/
def twoLamps : ChannelMap :=
  { leds := [{ name := "desk", channels := [
        { letter := 'r', pin := ⟨4⟩, letter_isLower := Eq.refl true },
        { letter := 'g', pin := ⟨17⟩, letter_isLower := Eq.refl true }] },
      { name := "shelf", channels := [
        { letter := 'r', pin := ⟨27⟩, letter_isLower := Eq.refl true }] }] }

theorem lookups_invert_contents_two_lamps :
    ofText threeChannels = .ok twoLamps ∧ twoLamps.find? "shelf" = some 1 ∧
      twoLamps.find? "Desk" = none ∧ twoLamps.pins.length ≤ 28 := by
  have hmap : ofText threeChannels = .ok twoLamps := by decide +kernel
  obtain ⟨hfind, hmissing, _, _, _, _, _, _, hlength⟩ := lookups_invert_contents hmap
  refine ⟨hmap, hfind 1 _ rfl, hmissing "Desk" ?_, hlength⟩
  decide

end ChannelMap

end LedSequencer
