import LedSequencer.Dialogue
import LedSequencer.Event

/-! # The outputs and their seal

  All writes of pins go through one bank of outputs. An operation of the bank calls
  the driver once or more, and no other operation comes between its calls. When the
  sequencer closes, the bank switches its pins off and is sealed: from then on it
  drops writes.
-/

namespace LedSequencer

/-- A call that reaches a pin driver. -/
inductive Call where
  /-- Set the pin up for output. -/
  | configure (pin : Pin)
  /-- Drive the pin. -/
  | set (pin : Pin) (level : Level)
deriving DecidableEq, Inhabited

/-- The pin of a call. -/
def Call.pin : Call → Pin
  | .configure pin => pin
  | .set pin _ => pin

/-- What an operation of the bank asks for while it has the outputs to itself. -/
inductive Request where
  /-- A call to the driver. -/
  | call (call : Call)
  /-- A report. -/
  | report (event : Event)

/-- A call is answered by the fault, if there is one. -/
@[reducible] def Request.Reply : Request → Type
  | .call _ => Option Fault
  | .report _ => Unit

/-- A stretch of calls and reports. -/
abbrev Wiring := Dialogue Request Request.Reply

namespace Wiring

/-- Calls the driver; a fault becomes an error of the pin. -/
def call (c : Call) : Wiring (Option PinError) :=
  .ask (.call c) fun fault => .done (fault.map fun fault => { pin := c.pin, fault })

/-- Reports an event. -/
def report (event : Event) : Wiring Unit := .ask (.report event) .done

/-- Drives every pin low, in order. A pin that fails is reported and the next one follows. -/
def lower : List Pin → Wiring Unit
  | [] => pure ()
  | pin :: rest => do
    match ← call (.set pin .low) with
    | some error => report (.switchOffFailed error)
    | none => pure ()
    lower rest

/-- Sets every pin up for output and drives it low, in order, up to the first call that fails. -/
def prepare : List Pin → Wiring (Option PinError)
  | [] => pure none
  | pin :: rest => do
    match ← call (.configure pin) with
    | some error => pure (some error)
    | none =>
      match ← call (.set pin .low) with
      | some error => pure (some error)
      | none => prepare rest

end Wiring

/-- The operations of the bank. -/
inductive BankOp where
  /-- Set pins up for output, driven low. -/
  | configureAll (pins : List Pin)
  /-- Drive one pin. -/
  | set (pin : Pin) (level : Level)
  /-- Switch pins off. -/
  | allOff (pins : List Pin)
  /-- Switch pins off and seal the bank. -/
  | seal (pins : List Pin)
deriving DecidableEq

namespace BankOp

/-- An operation that can fail answers with the error, and sealing answers whether it was this time
    that the bank was sealed. -/
@[reducible] def Reply : BankOp → Type
  | .configureAll _ => Option PinError
  | .set _ _ => Option PinError
  | .allOff _ => Unit
  | .seal _ => Bool

/-- What an operation does, given whether the bank is sealed, with the answer and whether the bank
    is sealed afterwards. Setting pins up is the one operation that the seal does not hold off. -/
def wiring : (op : BankOp) → (isSealed : Bool) → Wiring (op.Reply × Bool)
  | .configureAll pins, isSealed => do
    let error ← Wiring.prepare pins
    pure (error, isSealed)
  | .set pin level, false => do
    let error ← Wiring.call (.set pin level)
    pure (error, false)
  | .set _ _, true => pure (none, true)
  | .allOff pins, false => do
    Wiring.lower pins
    pure ((), false)
  | .allOff _, true => pure ((), true)
  | .seal pins, false => do
    Wiring.lower pins
    pure (true, true)
  | .seal _, true => pure (false, true)

end BankOp

end LedSequencer
