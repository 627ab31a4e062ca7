import LedSequencer.ChannelMap
import LedSequencer.Event
import LedSequencer.Pattern.Token

/-! # Compiling a line

  The tokens of a line are worked through in order, with one LED selected. Each adds
  operations to a bounded sequence, selects another LED, or leaves a note that it was
  skipped. A line that asks for more operations than a sequence holds is rejected at
  the first operation too many.
-/

namespace LedSequencer

/-- A line under way: the sequence so far, the place of the selected LED and the notes so far. -/
structure Draft where
  /-- The operations so far. -/
  sequence : Sequence
  /-- The place of the selected LED. -/
  led : Nat
  /-- What was skipped so far, in order. -/
  notes : Array Event

/-- A rejected line leaves only the notes made before the operation too many. -/
abbrev Drafting := Except (Array Event)

namespace Draft

/-- Adds an operation. -/
def push (d : Draft) (op : Operation) : Drafting Draft :=
  match d.sequence.push op with
  | .ok sequence => .ok { d with sequence }
  | .error _ => .error d.notes

/-- Leaves a note. -/
def note (d : Draft) (event : Event) : Draft := { d with notes := d.notes.push event }

/-- The operation that a letter asks of a pin: upper case switches on. Only ASCII letters name
    channels, so the case of no other letter matters. -/
def letterOperation (letter : Char) (pin : Pin) : Operation :=
  if letter.isUpper then .on pin else .off pin

/-- Works through one letter of a word. -/
def letter (led : Led) (d : Draft) (c : Char) : Drafting Draft :=
  match led.pin? c with
  | some pin => d.push (letterOperation c pin)
  | none => .ok (d.note (.unknownChannel led.name c))

/-- Switches a pin off. -/
def switchOff (d : Draft) (pin : Pin) : Drafting Draft := d.push (.off pin)

/-- Works through one token. -/
def token (map : ChannelMap) (d : Draft) : Token → Drafting Draft
  | .select name =>
    match map.find? name with
    | some led => .ok { d with led }
    | none => .ok (d.note (.unknownLed name))
  | .pause length => d.push (.pause length)
  | .channels letters =>
    match map.led? d.led with
    | some led => letters.foldlM (letter led) d
    | none => .ok d
  | .allOff =>
    match map.led? d.led with
    | some led => led.pins.foldlM switchOff d
    | none => .ok d
  | .unknown word => .ok (d.note (.unknownWord word))

end Draft

/-- An accepted line. -/
structure Compiled where
  /-- The operations of the line. -/
  sequence : Sequence
  /-- The place of the LED that is selected after the last word. -/
  led : Nat
deriving DecidableEq, Inhabited

/-- What became of a line. -/
structure Compilation where
  /-- What was skipped, in order. -/
  notes : List Event
  /-- The operations, or why the line was rejected. -/
  result : Except CompileError Compiled

/-- Works through a line with the LED at the given place selected. -/
def compilation (line : String) (map : ChannelMap) (led : Nat) : Compilation :=
  let start : Draft := { sequence := .idle, led, notes := #[] }
  match (tokens line).foldlM (Draft.token map) start with
  | .ok d => { notes := d.notes.toList, result := .ok { sequence := d.sequence, led := d.led } }
  | .error notes =>
    { notes := notes.toList, result := .error (.ofSequenceError .capacityExceeded) }

/-- Compiles a line with the LED at the given place selected. -/
def compile (line : String) (map : ChannelMap) (led : Nat) : Except CompileError Compiled :=
  (compilation line map led).result

end LedSequencer
