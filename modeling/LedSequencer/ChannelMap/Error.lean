import LedSequencer.Fault

/-! # Errors of configurations -/

namespace LedSequencer

/-- Why a configuration gives no channel map. -/
inductive ConfigError where
  /-- The file could not be read. -/
  | unreadable (path : String) (fault : Fault)
  /-- The text is no document. -/
  | malformed
  /-- The document is empty. -/
  | noLeds
  /-- A top-level name does not stand for a table. -/
  | notASection (led : String)
  /-- A key is not a single ASCII letter. -/
  | invalidChannel (led : String) (key : String)
  /-- A letter stands twice in one section, in whatever case. -/
  | duplicateChannel (led : String) (letter : Char)
  /-- A channel's value is no whole number. -/
  | invalidPin (led : String) (letter : Char)
  /-- A channel's value is no pin of the board. -/
  | pinOutOfRange (led : String) (letter : Char) (value : Int)
  /-- Two channels share a pin; both are given as section and letter. -/
  | duplicatePin (pin : Pin) (first second : String)
deriving DecidableEq

namespace ConfigError

/-- The message of a configuration error. -/
def message : ConfigError → String
  | .unreadable path fault => s!"failed to read config file '{path}': {fault.message}"
  | .malformed => "failed to parse config: the document is malformed"
  | .noLeds => "config defines no LED sections"
  | .notASection led => s!"'{led}' is not an LED section"
  | .invalidChannel led key => s!"LED '{led}': channel '{key}' must be a single letter"
  | .duplicateChannel led letter => s!"LED '{led}': channel '{letter}' defined more than once"
  | .invalidPin led letter => s!"LED '{led}': pin for channel '{letter}' is not an integer"
  | .pinOutOfRange led letter value =>
    s!"LED '{led}': pin {value} for channel '{letter}' is out of range 0..={Pin.highest}"
  | .duplicatePin pin first second => s!"pin {pin.text} is used by both {first} and {second}"

/-- The fault behind an error, when there is one. -/
def cause? : ConfigError → Option Fault
  | .unreadable _ fault => some fault
  | _ => none

end ConfigError

end LedSequencer
