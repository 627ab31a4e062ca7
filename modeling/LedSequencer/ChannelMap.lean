import LedSequencer.Pin

/-! # Channel maps

  A channel map lists LEDs by name. Each LED has channels, which are lower case
  letters with a pin. The order of LEDs and of channels is the order in which the
  configuration gives them: the first LED is selected at first, and "all off" goes
  through the channels in order.
-/

namespace LedSequencer

/-- A channel of an LED. -/
structure Channel where
  /-- The letter that patterns switch the channel with, in lower case. -/
  letter : Char
  /-- The pin that drives the channel. -/
  pin : Pin
  /-- Channels are named by ASCII letters. -/
  letter_isLower : letter.isLower = true := by decide
deriving DecidableEq

/-- A named light with its channels. -/
structure Led where
  /-- The name that selectors use. -/
  name : String
  /-- The channels in order. -/
  channels : List Channel
deriving DecidableEq, Inhabited

namespace Led

/-- The pin of a channel; the case of an ASCII letter does not matter. -/
def pin? (led : Led) (letter : Char) : Option Pin :=
  (led.channels.find? fun channel => channel.letter = letter.toLower).map Channel.pin

/-- The pins of the channels in order. -/
def pins (led : Led) : List Pin := led.channels.map Channel.pin

end Led

/-- All LEDs in order. -/
structure ChannelMap where
  /-- The LEDs. -/
  leds : List Led
deriving DecidableEq, Inhabited

namespace ChannelMap

/-- The place of the LED that is selected before any selector. -/
def defaultLed : Nat := 0

/-- The place of the LED with exactly the given name. -/
def find? (map : ChannelMap) (name : String) : Option Nat :=
  map.leds.findIdx? fun led => led.name = name

/-- The LED at a place. -/
def led? (map : ChannelMap) (i : Nat) : Option Led := map.leds[i]?

/-- The pins of all LEDs in order. -/
def pins (map : ChannelMap) : List Pin := map.leds.flatMap Led.pins

end ChannelMap

end LedSequencer
