import Mathlib
import LedSequencer.Proofs.Layouts
import LedSequencer.Proofs.SoundMaps

/-! # The documented format

  Every sound channel map whose LEDs have bare names can be written in the plain form
  of a layout, and every layout of it is read as that channel map, with the letters in
  lower case (`sound_map_expressible`).

  * **Written LEDs**: what their document says is faultless.
  * **Layouts**: what is written is what is read.
-/

namespace LedSequencer

/-! ### Written LEDs -/

/-- An entry gives one channel. -/
theorem Channel.IsOf.unique : Relator.RightUnique Channel.IsOf := by
  rintro entry c d ⟨hletter, hpin⟩ ⟨hletter', hpin'⟩
  have hnumber : (c.pin.number.toNat : Int) = d.pin.number.toNat := by
    rw [hpin] at hpin'
    injection hpin'
  obtain ⟨letter, pin, _⟩ := c
  obtain ⟨letter', pin', _⟩ := d
  obtain rfl : letter = letter' := List.head_eq_of_cons_eq (hletter.symm.trans hletter')
  obtain rfl : pin = pin' := Pin.eq_of_toNat (Int.ofNat_inj.1 hnumber)
  rfl

/-- A section gives one LED. -/
theorem Led.IsOf.unique : Relator.RightUnique Led.IsOf := by
  rintro s ⟨name, channels⟩ ⟨name', channels'⟩ ⟨hname, entries, htable, hchannels⟩
    ⟨hname', entries', htable', hchannels'⟩
  obtain rfl : name = name' := hname.trans hname'.symm
  obtain rfl : entries = entries' := by
    rw [htable] at htable'
    injection htable'
  obtain rfl : channels = channels' := Channel.IsOf.unique.forall₂ hchannels hchannels'
  rfl

/-- What a document says of a channel gives the channel that is meant. -/
theorem WrittenChannel.isOf (c : WrittenChannel) : Channel.IsOf c.entry c.channel := by
  refine ⟨?_, rfl⟩
  simp [WrittenChannel.entry, WrittenChannel.channel, lowerKey]

/-- What a document says of an LED gives the LED that is meant. -/
theorem WrittenLed.isOf (l : WrittenLed) : Led.IsOf l.entry l.led := by
  refine ⟨rfl, _, rfl, ?_⟩
  unfold WrittenLed.led
  rw [List.forall₂_map_left_iff, List.forall₂_map_right_iff, List.forall₂_same]
  exact fun c _ => c.isOf

theorem isOf_written (leds : List WrittenLed) :
    List.Forall₂ Led.IsOf (leds.map WrittenLed.entry) (leds.map WrittenLed.led) := by
  rw [List.forall₂_map_left_iff, List.forall₂_map_right_iff, List.forall₂_same]
  exact fun l _ => l.isOf

namespace ChannelMap

variable {leds : List WrittenLed}

theorem IsSound.pin_le (h : IsSound { leds := leds.map WrittenLed.led }) {l : WrittenLed}
    (hl : l ∈ leds) {c : WrittenChannel} (hc : c ∈ l.channels) :
    c.pin.number.toNat ≤ Pin.highest := by
  apply h.range
  refine List.mem_flatMap.2 ⟨l.led, List.mem_map_of_mem hl, ?_⟩
  exact List.mem_map.2 ⟨c.channel, List.mem_map_of_mem hc, rfl⟩

theorem IsSound.letters_written (h : IsSound { leds := leds.map WrittenLed.led }) {l : WrittenLed}
    (hl : l ∈ leds) : (l.channels.map WrittenChannel.letter).Nodup := by
  have hletters := h.letters l.led (List.mem_map_of_mem hl)
  refine List.Nodup.of_map Char.toLower ?_
  simpa [WrittenLed.led, WrittenChannel.channel, List.map_map, Function.comp_def] using hletters

theorem IsSound.names_written (h : IsSound { leds := leds.map WrittenLed.led }) :
    (leds.map WrittenLed.name).Nodup := by
  have hnames := h.names
  simpa [WrittenLed.led, List.map_map, Function.comp_def] using hnames

/-- The document of written LEDs is faultless when the channel map that is meant is sound. -/
theorem IsSound.isFaultless (h : IsSound { leds := leds.map WrittenLed.led }) :
    Document.IsFaultless (leds.map WrittenLed.entry) := by
  -- an assignment of the document is a channel of an LED
  have hassignment : ∀ a ∈ Document.assignments (leds.map WrittenLed.entry),
      ∃ l ∈ leds, ∃ c ∈ l.channels, a = .ofEntry l.name c.entry := by
    intro a ha
    simp only [Document.assignments, List.mem_flatMap, List.mem_map] at ha
    obtain ⟨_, ⟨l, hl, rfl⟩, e, he, rfl⟩ := ha
    obtain ⟨c, hc, rfl⟩ := List.mem_map.1 he
    exact ⟨l, hl, c, hc, rfl⟩
  refine ⟨?_, ?_, ?_, ?_, ?_⟩
  · intro s hs
    obtain ⟨l, _, rfl⟩ := List.mem_map.1 hs
    exact ⟨_, rfl⟩
  · intro a ha
    obtain ⟨l, _, c, _, rfl⟩ := hassignment a ha
    exact ⟨c.letter, String.toList_singleton c.letter, c.letter_isAlpha⟩
  · intro s hs
    obtain ⟨l, hl, rfl⟩ := List.mem_map.1 hs
    obtain ⟨_, entries, hentries, hchannels⟩ := l.isOf
    have hsection : l.entry.2.entries = entries := by
      rw [hentries]
      rfl
    rw [hsection, letters_of_channels hchannels]
    refine (h.letters l.led (List.mem_map_of_mem hl)).map ?_
    intro c d hsame
    exact List.head_eq_of_cons_eq hsame
  · intro a ha
    obtain ⟨l, hl, c, hc, rfl⟩ := hassignment a ha
    exact ⟨c.pin.number.toNat, h.pin_le hl hc, rfl⟩
  · rw [integers_of_leds (isOf_written leds)]
    refine h.pins.map ?_
    intro p q hsame
    exact Pin.eq_of_toNat (Int.ofNat_inj.1 hsame)

/-- The document of written LEDs describes the channel map that is meant. -/
theorem IsSound.ofDocument (h : IsSound { leds := leds.map WrittenLed.led }) :
    ChannelMap.ofDocument (leds.map WrittenLed.entry) =
      .ok { leds := leds.map WrittenLed.led } := by
  obtain ⟨herror, hok⟩ := ofDocument_verdict (leds.map WrittenLed.entry)
  cases hresult : ChannelMap.ofDocument (leds.map WrittenLed.entry) with
  | error error =>
    -- neither is the document empty, nor is there a fault in it
    rcases (herror error).1 hresult with ⟨hempty, _⟩ | hfault
    · rw [List.map_eq_nil_iff] at hempty
      subst hempty
      exact absurd rfl h.nonempty
    · exact absurd h.isFaultless hfault.not_isFaultless
  | ok map =>
    obtain ⟨found⟩ := map
    obtain rfl : found = leds.map WrittenLed.led :=
      Led.IsOf.unique.forall₂ (hok _ hresult).2 (isOf_written leds)
    rfl

end ChannelMap

/-! ### Layouts -/

/-- A channel as it is written in small letters. -/
def Channel.written (c : Channel) : WrittenChannel where
  letter := c.letter
  pin := c.pin
  letter_isAlpha := by rw [Char.isAlpha, c.letter_isLower, Bool.or_true]

/-- An LED as it is written in small letters. -/
def Led.written (l : Led) : WrittenLed where
  name := l.name
  channels := l.channels.map Channel.written

theorem Channel.channel_written (c : Channel) : c.written.channel = c := by
  obtain ⟨letter, pin, hletter⟩ := c
  unfold Channel.written WrittenChannel.channel
  simp only [Char.toLower_eq_of_not_isUpper (Char.not_isUpper_of_isLower hletter)]

theorem Led.led_written (l : Led) : l.written.led = l := by
  obtain ⟨name, channels⟩ := l
  unfold Led.written WrittenLed.led
  simp only [List.map_map, Function.comp_def, Channel.channel_written, List.map_id']

theorem map_led_written (leds : List Led) :
    (leds.map Led.written).map WrittenLed.led = leds := by
  simp only [List.map_map, Function.comp_def, Led.led_written, List.map_id']

/-- The lines of LEDs without anything in between are a layout of the LEDs. -/
theorem laysOut_lines (leds : List WrittenLed) : LaysOut (leds.flatMap WrittenLed.lines) leds := by
  have hnone : ∀ line ∈ leds.flatMap WrittenLed.lines, line.isFiller = false := by
    intro line hline
    obtain ⟨l, _, hof⟩ := List.mem_flatMap.1 hline
    rcases List.mem_cons.1 hof with rfl | hentry
    · rfl
    · obtain ⟨c, _, rfl⟩ := List.mem_map.1 hentry
      rfl
  constructor
  · rw [List.filter_eq_self]
    intro line hline
    rw [hnone line hline]
    rfl
  · intro line hline hfiller
    rw [hnone line hline] at hfiller
    cases hfiller

namespace ChannelMap

variable {map : ChannelMap}

/-- A layout of the LEDs of a sound channel map is read as the channel map. -/
theorem IsSound.ofText_layout (h : map.IsSound) (hbare : ∀ led ∈ map.leds, IsBareName led.name)
    {leds : List WrittenLed} (hleds : leds.map WrittenLed.led = map.leds)
    {lines : List ConfigLine} (hlines : LaysOut lines leds) :
    ofText (ConfigLine.textOf lines) = .ok map := by
  obtain ⟨found⟩ := map
  obtain rfl : leds.map WrittenLed.led = found := hleds
  have hnames : ∀ l ∈ leds, IsBareName l.name := fun l hl => hbare l.led (List.mem_map_of_mem hl)
  have hplain := hlines.isPlain hnames fun l hl c hc => h.pin_le hl hc
  have hread := Document.read?_layout hlines hplain h.names_written fun l hl => h.letters_written hl
  rw [ofText_of_read hread, h.ofDocument]

/-- A sound channel map whose LEDs have bare names is described by a text. -/
theorem IsSound.exists_text (h : map.IsSound) (hbare : ∀ led ∈ map.leds, IsBareName led.name) :
    ∃ text, ofText text = .ok map :=
  ⟨_, h.ofText_layout hbare (map_led_written map.leds) (laysOut_lines _)⟩

/-- **Every channel map can be written down.** The LEDs of a sound channel map with bare names can
    be written, each letter in either case, and written down in order they are a layout. However
    they are written and whatever blank lines and comments there are in between, a layout of them
    is read as the channel map. -/
theorem sound_map_expressible (h : map.IsSound)
    (hbare : ∀ led ∈ map.leds, IsBareName led.name) :
    (∃ leds : List WrittenLed, leds.map WrittenLed.led = map.leds) ∧
    ∀ leds : List WrittenLed, leds.map WrittenLed.led = map.leds →
      LaysOut (leds.flatMap WrittenLed.lines) leds ∧
      ∀ lines, LaysOut lines leds → ofText (ConfigLine.textOf lines) = .ok map := by
  refine ⟨⟨map.leds.map Led.written, map_led_written map.leds⟩, ?_⟩
  intro leds hleds
  refine ⟨laysOut_lines leds, ?_⟩
  intro lines hlines
  exact h.ofText_layout hbare hleds hlines

/-- LEDs with names that would be values anywhere else, the second one without channels. -/
def oddLeds : List WrittenLed :=
  [{ name := "true", channels := [{ letter := 'R', pin := ⟨0⟩ }, { letter := 'z', pin := ⟨27⟩ }] },
    { name := "1979-05-27", channels := [] },
    { name := "-", channels := [{ letter := 'r', pin := ⟨10⟩ }] }]

/-- A layout of them with fillers at the front, in between and at the end. -/
def oddLines : List ConfigLine :=
  [.comment " [off] = 1", .header "true", .blank " \t", .entry { letter := 'R', pin := ⟨0⟩ },
    .entry { letter := 'z', pin := ⟨27⟩ }, .header "1979-05-27", .comment "", .header "-",
    .entry { letter := 'r', pin := ⟨10⟩ }, .blank ""]

theorem sound_map_expressible_odd :
    let map : ChannelMap :=
      { leds := [
        { name := "true",
          channels := [{ letter := 'r', pin := ⟨0⟩ }, { letter := 'z', pin := ⟨27⟩ }] },
        { name := "1979-05-27", channels := [] },
        { name := "-", channels := [{ letter := 'r', pin := ⟨10⟩ }] }] }
    map.IsSound ∧ (∀ led ∈ map.leds, IsBareName led.name) ∧
      ofText "# [off] = 1\n[true]\n \t\nR = 0\nz = 27\n[1979-05-27]\n#\n[-]\nr = 10\n" =
        .ok map := by
  intro map
  have hsound : map.IsSound := by constructor <;> decide
  have hbare : ∀ led ∈ map.leds, IsBareName led.name := by decide +kernel
  have hlines : LaysOut oddLines oddLeds := by
    constructor
    · rfl
    · decide +kernel
  obtain ⟨_, hread⟩ := (sound_map_expressible hsound hbare).2 oddLeds rfl
  exact ⟨hsound, hbare, hread oddLines hlines⟩

end ChannelMap

end LedSequencer
