import LedSequencer.Pattern.Compiler
import LedSequencer.Playback.Action
import LedSequencer.Text.Utf8

/-! # Input sessions

  A session turns lines into active sequences. It remembers which LED the accepted
  lines so far leave selected. Before a line is compiled all pins go off; a rejected
  line leaves the sequence and the selection as they are. When the input ends, a
  session closes the sequencer.
-/

namespace LedSequencer

/-- A session over a channel map. -/
structure Session where
  /-- The LEDs and their channels. -/
  map : ChannelMap
  /-- The place of the LED that the next line starts with. -/
  led : Nat
deriving DecidableEq, Inhabited

/-- The kinds of faults of reading. -/
inductive ReadFault where
  /-- The reading was interrupted and can be tried again. -/
  | interrupted
  /-- What was read is no text. -/
  | invalidData
  /-- The input ended too early. -/
  | unexpectedEnd
  /-- The other side has gone. -/
  | brokenPipe
  /-- Anything else. -/
  | other
deriving DecidableEq, Inhabited

/-- A fault of reading with its message. -/
structure ReadError where
  /-- The kind of fault. -/
  kind : ReadFault
  /-- The message. -/
  message : String
deriving DecidableEq, Inhabited

/-- What comes of reading one line. -/
inductive Reading where
  /-- The text up to and with the line end. No text at all means that the input has ended. -/
  | text (line : String)
  /-- A fault, and the text that was read before it. -/
  | failed (before : String) (error : ReadError)
deriving DecidableEq

namespace Reading

/-- Reads a chunk of bytes that ends with a line: bytes that are no text are a fault. -/
def ofChunk (chunk : List UInt8) : Reading :=
  match textOfBytes? chunk with
  | some line => .text line
  | none => .failed "" { kind := .invalidData, message := Fault.notText.message }

/-- The readings of an input of bytes. -/
def ofBytes (bytes : List UInt8) : List Reading := (chunks bytes).map ofChunk

end Reading

/-- Takes line feeds and carriage returns off the end of a line. -/
def trimLineEnd (line : String) : String :=
  String.ofList ((line.toList.reverse.dropWhile fun c => c = '\n' || c = '\r').reverse)

namespace Session

/-- A session with the first LED selected. -/
def start (map : ChannelMap) : Session := { map, led := ChannelMap.defaultLed }

/-- Handles one line: all pins go off, and an accepted line becomes the active sequence. -/
def handleLine (s : Session) (line : String) : Activity (Except CompileError Unit × Session) := do
  Activity.allOff s.map.pins
  let c := compilation line s.map s.led
  Activity.reportAll c.notes
  match c.result with
  | .error error => pure (.error error, s)
  | .ok compiled =>
    Activity.install compiled.sequence
    pure (.ok (), { s with led := compiled.led })

/-- Ends the session. -/
def leave (s : Session) : Activity (Session × Except ReadError Unit) := do
  let _ ← Activity.shutDown s.map.pins
  pure (s, .ok ())

/-- Ends the session because its input has ended. -/
def endInput (s : Session) : Activity (Session × Except ReadError Unit) := do
  Activity.report .endOfInput
  s.leave

/-- Handles a line of the input; that it was rejected is reported. -/
def takeLine (s : Session) (line : String) : Activity Session := do
  let handled ← s.handleLine line
  match handled.1 with
  | .error error => Activity.report (.patternRejected error line)
  | .ok _ => pure ()
  pure handled.2

/-- Takes in one reading. Answers with the result when it ends the session. Interruptions and
    unreadable lines are passed over, with the text that was read before them. -/
def receive (s : Session) : Reading → Activity (Session × Option (Except ReadError Unit))
  | .text line =>
    if line = "" then do
      let ended ← s.endInput
      pure (ended.1, some ended.2)
    else do
      let s ← s.takeLine (trimLineEnd line)
      pure (s, none)
  | .failed _ error =>
    match error.kind with
    | .interrupted => pure (s, none)
    | .invalidData => do
      Activity.report (.unreadableLine error.message)
      pure (s, none)
    | _ => do
      let _ ← Activity.shutDown s.map.pins
      pure (s, some (.error error))

/-- Takes in readings in order until the session ends, at the latest with the last of them. Before
    each reading the session looks whether the sequencer closes. -/
def run (s : Session) : List Reading → Activity (Session × Except ReadError Unit)
  | [] => do
    if ← Activity.isClosing then s.leave else s.endInput
  | reading :: rest => do
    if ← Activity.isClosing then s.leave
    else
      match ← s.receive reading with
      | (s, none) => s.run rest
      | (s, some result) => pure (s, result)

end Session

end LedSequencer
