import LedSequencer.Output.Driver
import LedSequencer.Playback.Action

/-! # The shared state

  A `World` is the state behind the shared actions: a driver with its seal, the
  active sequence and the closing flag. It keeps a trace of everything that leaves
  it: driver calls, sleeps, yields and reports, in order. `World.act` is the meaning
  of each action; an `Activity` that no one interrupts is run by `World.run`.
-/

namespace LedSequencer

/-- Something that left the sequencer. -/
inductive Mark where
  /-- A driver call, with the fault it was answered by. -/
  | called (call : Call) (fault : Option Fault)
  /-- A sleep. -/
  | slept (length : Span)
  /-- A yield. -/
  | yielded
  /-- A report. -/
  | reported (event : Event)
deriving DecidableEq

/-- The shared state over a driver. -/
structure World (σ : Type) where
  /-- The driver. -/
  driver : σ
  /-- Whether the outputs are sealed. -/
  isSealed : Bool
  /-- The active sequence. -/
  active : Published
  /-- Whether the sequencer closes. -/
  closing : Bool
  /-- Everything that has left the sequencer, in order. -/
  trace : Array Mark

namespace World

variable {σ α : Type}

/-- The state at the start: nothing is sealed and the idle sequence is active. -/
def start (driver : σ) : World σ where
  driver
  isSealed := false
  active := .first
  closing := false
  trace := #[]

/-- Adds to the trace. -/
def mark (w : World σ) (m : Mark) : World σ := { w with trace := w.trace.push m }

/-- Makes a sequence the active one, under the next identity. -/
def publish (w : World σ) (sequence : Sequence) : World σ :=
  { w with active := w.active.next sequence }

variable [PinDriver σ]

/-- Answers what an operation of the outputs asks for. What the driver reports during a call comes
    before the call in the trace. -/
def request : (r : Request) → World σ → r.Reply × World σ
  | .call c, w =>
    let r := PinDriver.respond c w.driver
    let trace := (r.events.foldl (fun t event => t.push (.reported event)) w.trace)
    (r.fault, { w with driver := r.driver, trace := trace.push (.called c r.fault) })
  | .report event, w => ((), w.mark (.reported event))

/-- Carries out an operation of the outputs. -/
def bank (op : BankOp) (w : World σ) : op.Reply × World σ :=
  let isSealed := w.isSealed
  let result := (op.wiring isSealed).run request w
  (result.1.1, { result.2 with isSealed := result.1.2 })

/-- Carries out an action. A wait that no one ends is over at once. -/
def act : (a : Action) → World σ → a.Reply × World σ
  | .load, w => (w.active, w)
  | .publish sequence, w => ((), w.publish sequence)
  | .wake, w => ((), w)
  | .await id, w => (w.active.id != id, w)
  | .isClosing, w => (w.closing, w)
  | .close, w => ((), { w with closing := true })
  | .bank op, w => w.bank op
  | .sleep length, w => ((), w.mark (.slept length))
  | .yield, w => ((), w.mark .yielded)
  | .report event, w => ((), w.mark (.reported event))

/-- Runs an activity without interruption. -/
def run (d : Activity α) (w : World σ) : α × World σ := Dialogue.run act d w

end World

/-! ### Views of a trace -/

namespace Mark

/-- The driver call of a mark, with its fault. -/
def call? : Mark → Option (Call × Option Fault)
  | .called call fault => some (call, fault)
  | _ => none

/-- The driver call of a mark, unless the call was refused before it got there. -/
def passed? : Mark → Option Call
  | .called call none => some call
  | .called call (some fault) => if fault.isRefusal then none else some call
  | _ => none

/-- The pin and the level that a mark wrote, in the sense of `passed?`. -/
def write? (m : Mark) : Option (Pin × Level) :=
  match m.passed? with
  | some (.set pin level) => some (pin, level)
  | _ => none

/-- The pin that a mark set up for output, in the sense of `passed?`. -/
def configured? (m : Mark) : Option Pin :=
  match m.passed? with
  | some (.configure pin) => some pin
  | _ => none

/-- The sleep of a mark. -/
def sleep? : Mark → Option Span
  | .slept length => some length
  | _ => none

/-- Whether a mark is a yield. -/
def isYield : Mark → Bool
  | .yielded => true
  | _ => false

/-- The event of a mark. -/
def event? : Mark → Option Event
  | .reported event => some event
  | _ => none

end Mark

end LedSequencer
