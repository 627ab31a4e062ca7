import LedSequencer.Output.PinFiles
import LedSequencer.Playback.World
import LedSequencer.Rehearsal.Scene

/-! # Play with cues

  While a player plays in a rehearsal, its clock counts ticks instead of passing
  time, and at chosen ticks cues come, in the order of the script. A last tick closes
  the sequencer, so that play ends whatever the script says.
-/

namespace LedSequencer

/-- A world whose driver refuses chosen pins. -/
abbrev GatedWorld := World (Gate Hardware)

/-- From now on refuses these pins. -/
def GatedWorld.refuse (sets configures : List Pin) (w : GatedWorld) : GatedWorld :=
  { w with driver := { w.driver with refusedSets := sets, refusedConfigures := configures } }

/-- A player's performance: the state it shares with a session, and the clock. -/
structure Performance where
  /-- The shared state. -/
  world : GatedWorld
  /-- The session whose lines can come as cues. -/
  session : Session
  /-- The ticks so far. -/
  ticks : Nat

namespace Performance

/-- The number of rounds that suffice until a last tick: a sequence that waits nowhere ticks at
    every operation, and any other at least once from its beginning to its end. -/
def roundLimit (last : Nat) : Nat := (last + 1) * (capacity + 1)

/-- Carries out a cue. -/
def cue : Cue → Performance → Performance
  | .install ops, p => { p with world := (p.world.run (Activity.install (.ofList ops))).2 }
  | .line text, p =>
    let handled := p.world.run (p.session.handleLine text)
    { p with world := handled.2, session := handled.1.2 }
  | .shutDown, p => { p with world := (p.world.run (Activity.shutDown p.session.map.pins)).2 }
  | .close, p => { p with world := { p.world with closing := true } }
  | .refuse sets configures, p => { p with world := p.world.refuse sets configures }

/-- The clock ticks, and the cues of that tick come. The last tick closes the sequencer. -/
def tick (script : List TimedCue) (last : Nat) (p : Performance) : Performance :=
  let now := p.ticks + 1
  let due := script.filter fun timed => timed.tick = now
  let p := due.foldl (fun p timed => cue timed.cue p) { p with ticks := now }
  if now = last then cue .close p else p

/-- Whether an action is a tick of the clock. -/
def isTick : Action → Bool
  | .sleep _ => true
  | .yield => true
  | _ => false

/-- Carries out an action of the player. -/
def act (script : List TimedCue) (last : Nat) (a : Action) (p : Performance) :
    a.Reply × Performance :=
  let acted := p.world.act a
  let p := { p with world := acted.2 }
  (acted.1, if isTick a then p.tick script last else p)

/-- Lets a player play until the sequencer closes, at the latest with the last tick. -/
def play (script : List TimedCue) (last : Nat) (player : Player) (p : Performance) :
    Player × Performance :=
  (Player.play (roundLimit last) player).run (act script last) p

end Performance

end LedSequencer
