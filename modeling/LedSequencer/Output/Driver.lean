import LedSequencer.Output.Bank

/-! # Pin drivers

  A driver answers calls. It may keep a state, fail, and report events of its own.
-/

namespace LedSequencer

/-- What a driver answers to a call. -/
structure Response (σ : Type) where
  /-- The driver after the call. -/
  driver : σ
  /-- What went wrong, if anything. -/
  fault : Option Fault
  /-- What the driver reports, in order. -/
  events : List Event

/-- Something that answers calls. -/
class PinDriver (σ : Type) where
  /-- Answers one call. -/
  respond : Call → σ → Response σ

/-- What a dry run reports for a call; it never fails. -/
def dryRunEvents : Call → List Event
  | .configure pin => [.wouldConfigure pin]
  | .set pin level => [.wouldSet pin level]

/-- A driver in front of which chosen pins are refused. -/
structure Gate (σ : Type) where
  /-- The driver behind the gate. -/
  inner : σ
  /-- The pins whose writes are refused. -/
  refusedSets : List Pin
  /-- The pins that are refused when they are set up. -/
  refusedConfigures : List Pin

/-- The fault with which the gate refuses a call. -/
def Gate.refusal {σ : Type} (g : Gate σ) : Call → Option Fault
  | .configure pin =>
    if g.refusedConfigures.contains pin then some (.other "configure refused") else none
  | .set pin _ => if g.refusedSets.contains pin then some (.other "write refused") else none

instance {σ : Type} [PinDriver σ] : PinDriver (Gate σ) where
  respond c g :=
    match g.refusal c with
    | some fault => { driver := g, fault := some fault, events := [] }
    | none =>
      let r := PinDriver.respond c g.inner
      { driver := { g with inner := r.driver }, fault := r.fault, events := r.events }

end LedSequencer
