import LedSequencer.Output.Bank

/-! # Shared actions

  The player, the sessions and the shutdown share one state: the outputs, the
  active sequence and a flag that says that the sequencer closes. Each action here
  is one step on that state, with no step of anyone else inside it; whatever takes
  several actions can be interleaved with others.
-/

namespace LedSequencer

/-- A sequence as it was made active. Each time a sequence is made active it gets a new identity,
    also when it equals the one before. -/
structure Published where
  /-- The identity. -/
  id : Nat
  /-- The operations. -/
  sequence : Sequence
deriving DecidableEq, Inhabited

/-- The active sequence as inspection shows it. -/
def Published.inspect (p : Published) : String :=
  s!"PatternBuffer \x7b active: {p.sequence.inspect} \x7d"

/-- The active sequence before any other has been made active. -/
def Published.first : Published := { id := 0, sequence := .idle }

/-- What the active sequence becomes when another one takes its place. -/
def Published.next (p : Published) (sequence : Sequence) : Published :=
  { id := p.id + 1, sequence }

/-- A step on the shared state. -/
inductive Action where
  /-- Look at the active sequence. -/
  | load
  /-- Make a sequence the active one. -/
  | publish (sequence : Sequence)
  /-- Wake whoever waits for a new sequence. -/
  | wake
  /-- Wait, for a limited time, until a sequence with another identity is active. -/
  | await (id : Nat)
  /-- Ask whether the sequencer closes. -/
  | isClosing
  /-- Let the sequencer close. -/
  | close
  /-- An operation of the outputs. -/
  | bank (op : BankOp)
  /-- Sleep. -/
  | sleep (length : Span)
  /-- Let others run. -/
  | yield
  /-- Report an event. -/
  | report (event : Event)

/-- The reply to an action: what was looked at, and for `await` whether another sequence is
    active. -/
@[reducible] def Action.Reply : Action → Type
  | .load => Published
  | .publish _ => Unit
  | .wake => Unit
  | .await _ => Bool
  | .isClosing => Bool
  | .close => Unit
  | .bank op => op.Reply
  | .sleep _ => Unit
  | .yield => Unit
  | .report _ => Unit

/-- What someone does on the shared state, action by action. -/
abbrev Activity := Dialogue Action Action.Reply

namespace Activity

/-- Looks at the active sequence. -/
def load : Activity Published := .ask .load .done

/-- Makes a sequence the active one. -/
def publish (s : Sequence) : Activity Unit := .ask (.publish s) .done

/-- Wakes whoever waits for a new sequence. -/
def wake : Activity Unit := .ask .wake .done

/-- Waits, for a limited time, until a sequence with another identity is active. -/
def await (id : Nat) : Activity Bool := .ask (.await id) .done

/-- Asks whether the sequencer closes. -/
def isClosing : Activity Bool := .ask .isClosing .done

/-- Lets the sequencer close. -/
def close : Activity Unit := .ask .close .done

/-- Sets pins up for output, driven low. -/
def configureAll (pins : List Pin) : Activity (Option PinError) :=
  .ask (.bank (.configureAll pins)) .done

/-- Drives one pin. -/
def set (pin : Pin) (level : Level) : Activity (Option PinError) :=
  .ask (.bank (.set pin level)) .done

/-- Switches pins off. -/
def allOff (pins : List Pin) : Activity Unit := .ask (.bank (.allOff pins)) .done

/-- Switches pins off and seals the outputs; answers whether this was the first time. -/
def sealPins (pins : List Pin) : Activity Bool := .ask (.bank (.seal pins)) .done

/-- Sleeps. -/
def sleep (length : Span) : Activity Unit := .ask (.sleep length) .done

/-- Lets others run. -/
def yield : Activity Unit := .ask .yield .done

/-- Reports an event. -/
def report (event : Event) : Activity Unit := .ask (.report event) .done

/-- Reports events in order. -/
def reportAll : List Event → Activity Unit
  | [] => pure ()
  | event :: rest => do
    report event
    reportAll rest

/-- Makes a sequence the active one and wakes whoever waits for it. -/
def install (s : Sequence) : Activity Unit := do
  report (.installing s.length s.isStatic)
  publish s
  wake

/-- Closes the sequencer: whoever waits is woken, and the pins are switched off and the outputs
    sealed, once. Answers whether it was this time. -/
def shutDown (pins : List Pin) : Activity Bool := do
  close
  wake
  let first ← sealPins pins
  if first then report .outputsOff
  pure first

end Activity

end LedSequencer
