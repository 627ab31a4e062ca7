import LedSequencer.Rehearsal.Play

/-! # Rehearsals

  A stand holds what a rehearsal works on: the shared state, one session and one
  player. Scenes are played on it in order, and each leaves a report: its result,
  what left the sequencer during it, and how things stand after it.
-/

namespace LedSequencer

/-- What a rehearsal works on. -/
structure Stand where
  /-- The shared state. -/
  world : GatedWorld
  /-- The session. -/
  session : Session
  /-- The player. -/
  player : Player
  /-- The sequence that was kept for comparison. -/
  kept : Published

/-- What is known after a scene. -/
structure SceneReport where
  /-- What came of the scene. -/
  result : SceneResult
  /-- Everything that left the sequencer during the scene, in order. -/
  marks : List Mark
  /-- The active sequence, if it is another one than before the scene. -/
  installed : Option Sequence
  /-- Whether nothing in the active sequence waits. -/
  isStatic : Bool
  /-- The place of the LED that the session has selected. -/
  led : Nat
  /-- The place of the player's next operation. -/
  cursor : Nat
  /-- Whether the player holds another sequence than the active one. -/
  isStale : Bool
  /-- Whether the outputs are sealed. -/
  isSealed : Bool
  /-- Whether the sequencer closes. -/
  isClosing : Bool
  /-- The tree behind the pins, if they are files. -/
  tree : Option FileTree

namespace Stand

/-- A stand before the first scene, with pins that are driven through the given hardware. -/
def start (map : ChannelMap) (hardware : Hardware) (sets configures : List Pin) : Stand where
  world := .start { inner := hardware, refusedSets := sets, refusedConfigures := configures }
  session := .start map
  player := .start .first
  kept := .first

/-- Carries out an activity on the shared state. -/
def carryOut {α : Type} (d : Activity α) (s : Stand) : α × Stand :=
  let ⟨world, session, player, kept⟩ := s
  let done := world.run d
  (done.1, { world := done.2, session, player, kept })

/-- Lets the player take steps; each is added to the steps so far, newest first. -/
def steps : Nat → List (Operation × Nat) → Stand → List (Operation × Nat) × Stand
  | 0, taken, s => (taken.reverse, s)
  | more + 1, taken, s =>
    let stepped := s.carryOut s.player.step
    let op := stepped.1.1
    let player := stepped.1.2
    steps more ((op, player.cursor) :: taken) { stepped.2 with player }

/-- The number of the tick that ends a scene of play. -/
def lastTick : Nat := 5000

/-- Lets a player play a script; a new player leaves the one of the stand as it is. -/
def play (script : List TimedCue) (isNew : Bool) (s : Stand) : SceneResult × Stand :=
  let ⟨world, session, player, kept⟩ := s
  let playing := if isNew then Player.start world.active else player
  let played := Performance.play script lastTick playing { world, session, ticks := 0 }
  let p := played.2
  (.ticks p.ticks,
    { world := p.world
      session := p.session
      player := if isNew then player else played.1
      kept })

/-- Plays a scene. -/
def scene : Scene → Stand → SceneResult × Stand
  | .line text, s =>
    let handled := s.carryOut (s.session.handleLine text)
    let s := { handled.2 with session := handled.1.2 }
    match handled.1.1 with
    | .ok _ => (.done, s)
    | .error error => (.rejected error, s)
  | .run readings, s =>
    let ended := s.carryOut (s.session.run readings)
    let s := { ended.2 with session := ended.1.1 }
    match ended.1.2 with
    | .ok _ => (.done, s)
    | .error error => (.broken error, s)
  | .step count, s =>
    let stepped := steps count [] s
    (.steps stepped.1, stepped.2)
  | .play script isNew, s => play script isNew s
  | .install ops, s => (.done, (s.carryOut (Activity.install (.ofList ops))).2)
  | .shutDown, s =>
    let closed := s.carryOut (Activity.shutDown s.session.map.pins)
    (.truth closed.1, closed.2)
  | .setClosing value, s => (.done, { s with world := { s.world with closing := value } })
  | .configure, s =>
    let configured := s.carryOut (Activity.configureAll s.session.map.pins)
    (.ofPins configured.1, configured.2)
  | .configureAll pins, s =>
    let configured := s.carryOut (Activity.configureAll pins)
    (.ofPins configured.1, configured.2)
  | .set pin level, s =>
    let written := s.carryOut (Activity.set pin level)
    (.ofPins written.1, written.2)
  | .allOff pins, s => (.done, (s.carryOut (Activity.allOff pins)).2)
  | .seal pins, s =>
    let first := s.carryOut (Activity.sealPins pins)
    (.truth first.1, first.2)
  | .refuse sets configures, s => (.done, { s with world := s.world.refuse sets configures })
  | .await, s =>
    let waited := s.carryOut (Activity.await s.player.held.id)
    (.truth waited.1, waited.2)
  | .wake, s => (.done, (s.carryOut Activity.wake).2)
  | .newPlayer, s => (.done, { s with player := .start s.world.active })
  | .newSession, s => (.done, { s with session := .start s.session.map })
  | .keep, s => (.done, { s with kept := s.world.active })
  | .compare, s =>
    (.comparison (s.world.active.id == s.kept.id)
      (s.world.active.sequence == s.kept.sequence) s.kept.sequence, s)
  | .showMap, s => (.map s.session.map, s)
  | .inspect, s => (.text s.world.active.inspect, s)
  | .inspectFirst, s => (.text Published.first.inspect, s)

/-- The report of a scene, and the stand with an empty trace for the next one. -/
def report (before : Nat) (result : SceneResult) (s : Stand) : SceneReport × Stand :=
  let active := s.world.active
  ({ result
     marks := s.world.trace.toList
     installed := if active.id = before then none else some active.sequence
     isStatic := active.sequence.isStatic
     led := s.session.led
     cursor := s.player.cursor
     isStale := s.player.held.id != active.id
     isSealed := s.world.isSealed
     isClosing := s.world.closing
     tree := s.world.driver.inner.tree? },
    { s with world := { s.world with trace := #[] } })

/-- Plays scenes in order, each with its report. -/
def rehearse : List Scene → Stand → List SceneReport
  | [], _ => []
  | next :: rest, s =>
    let before := s.world.active.id
    let played := scene next s
    let reported := report before played.1 played.2
    reported.1 :: rehearse rest reported.2

end Stand

end LedSequencer
