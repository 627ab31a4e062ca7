import LedSequencer.Playback.Action

/-! # The player

  The player walks the active sequence operation by operation, over and over. Before
  each operation it looks at the active sequence, and when that is another one than
  it holds, it takes it up and starts at its beginning. A static sequence makes it
  give way after every operation.
-/

namespace LedSequencer

/-- A player: the sequence it holds and the place of the next operation. -/
structure Player where
  /-- The sequence the player walks. -/
  held : Published
  /-- The place of the next operation. -/
  cursor : Nat
deriving DecidableEq, Inhabited

namespace Player

/-- A player at the beginning of a sequence. -/
def start (held : Published) : Player := { held, cursor := 0 }

/-- Takes up the active sequence when it is not the one the player holds. -/
def adopt (p : Player) (active : Published) : Player :=
  if active.id = p.held.id then p else start active

/-- The next operation. -/
def next (p : Player) : Operation := p.held.sequence.get p.cursor

/-- The player after its next operation. -/
def advance (p : Player) : Player :=
  match p.next with
  | .rewind => { p with cursor := 0 }
  | _ => { p with cursor := p.cursor + 1 }

/-- Drives a pin; a fault is reported and play goes on. -/
def write (pin : Pin) (level : Level) : Activity Unit := do
  match ← Activity.set pin level with
  | some error => Activity.report (.writeFailed error)
  | none => pure ()

/-- Carries an operation out. -/
def carryOut : Operation → Activity Unit
  | .on pin => write pin .high
  | .off pin => write pin .low
  | .pause length => Activity.sleep length
  | .rewind => pure ()

/-- One operation of the active sequence. Answers with the operation and the player after it. -/
def step (p : Player) : Activity (Operation × Player) := do
  let active ← Activity.load
  let p := p.adopt active
  carryOut p.next
  if p.held.sequence.isStatic then Activity.yield
  pure (p.next, p.advance)

/-- One round of play: nothing when the sequencer closes, otherwise one step. A player that holds
    an idle sequence first waits for another one, and leaves the step out when none came. -/
def round (p : Player) : Activity (Option Player) := do
  if ← Activity.isClosing then pure none
  else
    let ready ← if p.held.sequence.isEmpty then Activity.await p.held.id else pure true
    if ready then
      let stepped ← p.step
      pure (some stepped.2)
    else pure (some p)

/-- Rounds of play until the sequencer closes, at most as many as the number says. -/
def rounds : Nat → Player → Activity Player
  | 0, p => pure p
  | more + 1, p => do
    match ← p.round with
    | none =>
      Activity.report .playerStopped
      pure p
    | some p => rounds more p

/-- Plays until the sequencer closes, for at most so many rounds. -/
def play (limit : Nat) (p : Player) : Activity Player := do
  Activity.report .playerStarted
  rounds limit p

end Player

end LedSequencer
