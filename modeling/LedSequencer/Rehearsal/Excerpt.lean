import LedSequencer.Output.PinFiles
import LedSequencer.Playback.Player
import LedSequencer.Playback.Session
import LedSequencer.Playback.World

/-! # Excerpts of play

  An excerpt lets a player play until it has written a given number of times, and
  then shuts the sequencer down, twice.
-/

namespace LedSequencer

/-- A player's performance that ends after a number of writes. -/
structure Countdown where
  /-- The shared state. -/
  world : World Hardware
  /-- The writes that are left. -/
  left : Nat

namespace Countdown

/-- Carries out an action of the player; the sequencer closes when no write is left. -/
def act (a : Action) (c : Countdown) : a.Reply × Countdown :=
  let acted := c.world.act a
  let left :=
    match a with
    | .bank (.set _ _) => c.left - 1
    | _ => c.left
  (acted.1, { world := { acted.2 with closing := left = 0 }, left })

end Countdown

/-- What an excerpt shows. -/
structure Excerpt where
  /-- The first writes of the player. -/
  first : List (Pin × Level)
  /-- As many writes at the end as the channel map has pins. -/
  last : List (Pin × Level)
  /-- The answer to the first shutdown. -/
  isFirst : Bool
  /-- The answer to the second shutdown. -/
  isFirstAgain : Bool
  /-- Whether the outputs are sealed at the end. -/
  isSealed : Bool
deriving DecidableEq

/-- Plays an excerpt. A session may handle a line before, with what it writes left out, and a
    sequence may become active after the player was made. The player is given enough rounds for
    one write in each run through the sequence. -/
def excerpt (map : ChannelMap) (before : Option String) (after : Option (List Operation))
    (writes : Nat) : Excerpt :=
  let prepared : World Hardware :=
    match before with
    | some line => ((World.start .nothing).run ((Session.start map).handleLine line)).2
    | none => World.start .nothing
  let player := Player.start prepared.active
  let ready : World Hardware :=
    match after with
    | some ops => (prepared.run (Activity.install (.ofList ops))).2
    | none => prepared
  let start : Countdown :=
    { world := { ready with trace := #[], closing := writes = 0 }, left := writes }
  let played := ((Player.play ((writes + 1) * capacity) player).run Countdown.act start).2.world
  let closed := played.run (Activity.shutDown map.pins)
  let again := closed.2.run (Activity.shutDown map.pins)
  let written := again.2.trace.toList.filterMap Mark.write?
  { first := written.take writes
    last := written.drop (written.length - map.pins.length)
    isFirst := closed.1
    isFirstAgain := again.1
    isSealed := again.2.isSealed }

end LedSequencer
