import LedSequencer.Playback.Player
import LedSequencer.Playback.Session

/-! # Scenes of a rehearsal

  A rehearsal plays scenes on one sequencer, and nothing of it needs a real pin or a
  real clock. Most scenes are one thing that a session, a player or the outputs do.
  In a scene of play, the player goes on until the sequencer closes, and cues come at
  chosen ticks: a tick is a sleep or a yield of the player.
-/

namespace LedSequencer

/-- Something that happens at a tick, while the player plays. -/
inductive Cue where
  /-- A sequence of these operations becomes the active one. -/
  | install (ops : List Operation)
  /-- The session handles a line. -/
  | line (text : String)
  /-- The sequencer is shut down. -/
  | shutDown
  /-- The sequencer closes, and the outputs are left alone. -/
  | close
  /-- From now on these writes, and setting up these pins, are refused. -/
  | refuse (sets configures : List Pin)
deriving DecidableEq

/-- A cue and the tick it comes at; the first tick has number one. -/
structure TimedCue where
  /-- The number of the tick. -/
  tick : Nat
  /-- What happens then. -/
  cue : Cue
deriving DecidableEq

/-- One scene. -/
inductive Scene where
  /-- The session handles a line. -/
  | line (text : String)
  /-- The session takes in readings until it ends. -/
  | run (readings : List Reading)
  /-- The player takes so many steps. -/
  | step (count : Nat)
  /-- The player plays until the sequencer closes, or a new one does while this one rests. -/
  | play (script : List TimedCue) (isNew : Bool)
  /-- A sequence of these operations becomes the active one. -/
  | install (ops : List Operation)
  /-- The sequencer is shut down. -/
  | shutDown
  /-- The flag that says that the sequencer closes is set or cleared. -/
  | setClosing (value : Bool)
  /-- All pins of the channel map are set up for output. -/
  | configure
  /-- These pins are set up for output. -/
  | configureAll (pins : List Pin)
  /-- A pin is driven. -/
  | set (pin : Pin) (level : Level)
  /-- These pins are switched off. -/
  | allOff (pins : List Pin)
  /-- These pins are switched off and the outputs sealed. -/
  | seal (pins : List Pin)
  /-- From now on these writes, and setting up these pins, are refused. -/
  | refuse (sets configures : List Pin)
  /-- The player waits, for no time at all, for another sequence than it holds. -/
  | await
  /-- Whoever waits is woken. -/
  | wake
  /-- A new player takes the place of the one there is. -/
  | newPlayer
  /-- A new session takes the place of the one there is. -/
  | newSession
  /-- The active sequence is kept for comparison. -/
  | keep
  /-- The active sequence is compared with the one kept. -/
  | compare
  /-- The channel map is shown. -/
  | showMap
  /-- The active sequence is shown as inspection shows it. -/
  | inspect
  /-- The first active sequence is shown as inspection shows it. -/
  | inspectFirst
deriving DecidableEq

/-- What came of a scene. -/
inductive SceneResult where
  /-- It was carried out. -/
  | done
  /-- The line was rejected. -/
  | rejected (error : CompileError)
  /-- The input broke off. -/
  | broken (error : ReadError)
  /-- A pin failed. -/
  | pinFailed (error : PinError)
  /-- Yes or no. -/
  | truth (value : Bool)
  /-- The steps of the player, each with the place of the next operation after it. -/
  | steps (steps : List (Operation × Nat))
  /-- The number of ticks that passed. -/
  | ticks (count : Nat)
  /-- Whether two sequences are one and the same, whether their operations are equal, and the one
      that was kept. -/
  | comparison (isSame isEqual : Bool) (kept : Sequence)
  /-- The channel map. -/
  | map (map : ChannelMap)
  /-- A text. -/
  | text (text : String)

/-- The result of something that can only fail at a pin. -/
def SceneResult.ofPins : Option PinError → SceneResult
  | none => .done
  | some error => .pinFailed error

end LedSequencer
