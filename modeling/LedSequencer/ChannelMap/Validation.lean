import LedSequencer.ChannelMap
import LedSequencer.ChannelMap.Error
import LedSequencer.Document.Reader

/-! # Channel maps from documents

  Each top-level name of a document is an LED, and the table it stands for lists the
  channels with their pins. Sections and entries are checked in order, and the first
  fault decides the error.
-/

namespace LedSequencer

/-- The pins in use and who uses them, as section and letter. -/
abbrev Owners := List (Pin × String)

/-- A channel as error messages name it. -/
def channelName (led : String) (letter : Char) : String := s!"{led}.{letter}"

/-- The pin that a whole number names, when the board has it. -/
def pinOfInt? (value : Int) : Option Pin :=
  if 0 ≤ value ∧ value ≤ Int.ofNat Pin.highest then some ⟨UInt8.ofNat value.toNat⟩ else none

/-- Reads one entry of a section after the given channels: a letter that is new to the section with
    a pin that is new to the document. -/
def readEntry (led : String) (owners : Owners) (channels : List Channel) (key : String)
    (datum : Datum) : Except ConfigError Channel :=
  match key.toList with
  | [c] =>
    let letter := c.toLower
    -- only an ASCII letter is a lower case letter in lower case
    if hletter : letter.isLower = true then
      if channels.any fun channel => channel.letter = letter then
        .error (.duplicateChannel led letter)
      else
        match datum with
        | .integer value =>
          match pinOfInt? value with
          | none => .error (.pinOutOfRange led letter value)
          | some pin =>
            match owners.lookup pin with
            | some first => .error (.duplicatePin pin first (channelName led letter))
            | none => .ok { letter, pin, letter_isLower := hletter }
        | _ => .error (.invalidPin led letter)
    else .error (.invalidChannel led key)
  | _ => .error (.invalidChannel led key)

/-- Reads the entries of a section in order. -/
def readEntries (led : String) :
    Owners → List Channel → List (String × Datum) → Except ConfigError (Owners × List Channel)
  | owners, channels, [] => .ok (owners, channels)
  | owners, channels, (key, datum) :: rest => do
    let channel ← readEntry led owners channels key datum
    readEntries led (owners ++ [(channel.pin, channelName led channel.letter)])
      (channels ++ [channel]) rest

/-- Reads the sections of a document in order. -/
def readSections : Owners → Document → Except ConfigError (List Led)
  | _, [] => .ok []
  | owners, (name, .table entries) :: rest => do
    let (owners, channels) ← readEntries name owners [] entries
    let leds ← readSections owners rest
    .ok ({ name, channels } :: leds)
  | _, (name, _) :: _ => .error (.notASection name)

namespace ChannelMap

/-- The channel map that a document describes. -/
def ofDocument (document : Document) : Except ConfigError ChannelMap := do
  let leds ← readSections [] document
  if leds = [] then .error .noLeds else .ok { leds }

/-- The channel map that a configuration text describes. -/
def ofText (text : String) : Except ConfigError ChannelMap :=
  match Document.read? text with
  | none => .error .malformed
  | some document => ofDocument document

end ChannelMap

end LedSequencer
