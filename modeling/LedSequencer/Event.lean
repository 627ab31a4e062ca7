import LedSequencer.Fault
import LedSequencer.Pattern.Error

/-! # Events

  What the sequencer reports while it works. Each kind of event has a level, a fixed
  message and a list of named fields.
-/

namespace LedSequencer

/-- How much an event matters, least first. -/
inductive Severity where
  | trace
  | debug
  | info
  | warn
deriving DecidableEq

/-- Whether events of the severity are shown to whoever runs the program. -/
def Severity.isShown : Severity → Bool
  | .trace | .debug => false
  | .info | .warn => true

/-- The name of a severity. -/
def Severity.name : Severity → String
  | .trace => "TRACE"
  | .debug => "DEBUG"
  | .info => "INFO"
  | .warn => "WARN"

/-- Something worth reporting. -/
inductive Event where
  /-- A channel map was read. -/
  | loaded (path : String) (leds : Nat)
  /-- Lines are read from now on. -/
  | readingPatterns
  /-- A selector names no LED. -/
  | unknownLed (name : String)
  /-- A letter is no channel of the selected LED. -/
  | unknownChannel (led : String) (letter : Char)
  /-- A word has none of the known shapes. -/
  | unknownWord (word : String)
  /-- A sequence becomes the active one. -/
  | installing (length : Nat) (isStatic : Bool)
  /-- The player begins. -/
  | playerStarted
  /-- The player has seen that the sequencer closes. -/
  | playerStopped
  /-- A pin has been set up for output. -/
  | configured (pin : Pin)
  /-- A pin would have been set up for output. -/
  | wouldConfigure (pin : Pin)
  /-- A pin would have been driven. -/
  | wouldSet (pin : Pin) (level : Level)
  /-- The outputs have been switched off for good. -/
  | outputsOff
  /-- The input has no more lines. -/
  | endOfInput
  /-- A pin could not be switched off. -/
  | switchOffFailed (error : PinError)
  /-- A pin could not be written while playing. -/
  | writeFailed (error : PinError)
  /-- A line could not be read. -/
  | unreadableLine (reason : String)
  /-- A line was rejected. -/
  | patternRejected (error : CompileError) (pattern : String)
deriving DecidableEq

namespace Event

/-- How much an event matters. -/
def severity : Event → Severity
  | .unknownLed _ | .unknownChannel _ _ | .unknownWord _ => .trace
  | .installing _ _ | .playerStarted | .playerStopped | .configured _ | .wouldSet _ _ => .debug
  | .loaded _ _ | .readingPatterns | .wouldConfigure _ | .outputsOff | .endOfInput => .info
  | .switchOffFailed _ | .writeFailed _ | .unreadableLine _ | .patternRejected _ _ => .warn

/-- The fixed message of an event. -/
def message : Event → String
  | .loaded _ _ => "loaded channel map"
  | .readingPatterns => "reading patterns from stdin"
  | .unknownLed _ => "unknown LED selector ignored"
  | .unknownChannel _ _ => "unknown channel ignored"
  | .unknownWord _ => "unrecognized token ignored"
  | .installing _ _ => "installing sequence"
  | .playerStarted => "player started"
  | .playerStopped => "player stopped"
  | .configured _ => "configured as output"
  | .wouldConfigure _ => "dry run: configure as output"
  | .wouldSet _ _ => "dry run: set"
  | .outputsOff => "all outputs off"
  | .endOfInput => "end of input"
  | .switchOffFailed _ => "failed to switch pin off"
  | .writeFailed _ => "pin write failed, continuing"
  | .unreadableLine _ => "skipping unreadable line"
  | .patternRejected _ _ => "pattern rejected, keeping previous"

/-- The named values of an event, in order. -/
def fields : Event → List (String × String)
  | .loaded path leds => [("config", path), ("leds", Nat.repr leds)]
  | .unknownLed name => [("led", name)]
  | .unknownChannel led letter => [("led", led), ("channel", letter.toString)]
  | .unknownWord word => [("token", word)]
  | .installing length isStatic =>
    [("operations", Nat.repr length), ("is_static", toString isStatic)]
  | .readingPatterns | .playerStarted | .playerStopped | .outputsOff | .endOfInput => []
  | .configured pin | .wouldConfigure pin => [("pin", pin.text)]
  | .wouldSet pin level => [("pin", pin.text), ("level", level.name)]
  | .switchOffFailed error | .writeFailed error => [("err", error.message)]
  | .unreadableLine reason => [("err", reason)]
  | .patternRejected error pattern => [("err", error.message), ("pattern", pattern)]

/-- An event as one line of a log. -/
def line (event : Event) : String :=
  let fields := event.fields.map fun field => s!" {field.1}={field.2}"
  s!"{event.severity.name} {event.message}{String.join fields}"

end Event

end LedSequencer
