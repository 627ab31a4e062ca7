/-! # Output pins and their levels -/

namespace LedSequencer

/-- A physical output pin. -/
structure Pin where
  /-- The number the board gives to the pin. -/
  number : UInt8
deriving DecidableEq, Inhabited

/-- The highest pin that a channel may use: the header of the board has pins 0 to 27. -/
def Pin.highest : Nat := 27

/-- The pin's number in decimal. -/
def Pin.text (pin : Pin) : String := Nat.repr pin.number.toNat

/-- The level of an output pin. -/
inductive Level where
  /-- The channel is lit. -/
  | high
  /-- The channel is dark. -/
  | low
deriving DecidableEq, Inhabited

namespace Level

/-- The name of the level. -/
def name : Level → String
  | .high => "High"
  | .low => "Low"

/-- The digit that a pin's value file takes for the level. -/
def digit : Level → String
  | .high => "1"
  | .low => "0"

end Level

end LedSequencer
