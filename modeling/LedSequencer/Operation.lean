import LedSequencer.Pin
import LedSequencer.Span

/-! # Operations

  The single steps of a pattern: drive a pin, hold everything for a while, or go
  back to the first step.
-/

namespace LedSequencer

/-- One step of a pattern. -/
inductive Operation where
  /-- Drive the pin to its active level. -/
  | on (pin : Pin)
  /-- Drive the pin to its inactive level. -/
  | off (pin : Pin)
  /-- Leave every output as it is for the given time. -/
  | pause (length : Span)
  /-- The end of the pattern: play goes on with its first operation. -/
  | rewind
deriving DecidableEq, Inhabited

namespace Operation

/-- The pin that the operation writes, and the level it writes there. -/
def transition : Operation → Option (Pin × Level)
  | .on pin => some (pin, .high)
  | .off pin => some (pin, .low)
  | .pause _ => none
  | .rewind => none

/-- Whether the operation waits. -/
def isPause : Operation → Bool
  | .pause _ => true
  | _ => false

/-- The operation as messages show it. -/
def text : Operation → String
  | .on pin => s!"on({pin.text})"
  | .off pin => s!"off({pin.text})"
  | .pause length => s!"pause({length.text})"
  | .rewind => "end"

/-- The operation as inspection shows it, with the kind of each part. -/
def inspect : Operation → String
  | .on pin => s!"On(PinId({pin.text}))"
  | .off pin => s!"Off(PinId({pin.text}))"
  | .pause length => s!"Pause({length.text})"
  | .rewind => "End"

end Operation

end LedSequencer
