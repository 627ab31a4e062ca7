import LedSequencer.Playback.World

/-! # Waiting and waking

  Two of the shared actions are not done in one step. Who waits for another sequence
  parks under a lock, and who wakes takes the same lock and stirs whoever is parked.
  The active sequence itself is looked at and replaced without the lock. A `Watch` is
  such an action signal by signal.
-/

namespace LedSequencer

/-- A step of waiting or waking. -/
inductive Signal where
  /-- Take the lock, once it is free. -/
  | lock
  /-- Give the lock back. -/
  | unlock
  /-- Stir everyone who is parked. -/
  | notifyAll
  /-- Give the lock back and park in one step, until stirred or for a limited time, and take the
      lock again. -/
  | park
  /-- Look whether a sequence with another identity is active. -/
  | differs (id : Nat)
deriving DecidableEq

/-- Only a look has something to tell. -/
@[reducible] def Signal.Reply : Signal → Type
  | .lock => Unit
  | .unlock => Unit
  | .notifyAll => Unit
  | .park => Unit
  | .differs _ => Bool

/-- Waiting or waking, signal by signal. -/
abbrev Watch := Dialogue Signal Signal.Reply

namespace Watch

/-- Takes the lock. -/
def lock : Watch Unit := .ask .lock .done

/-- Gives the lock back. -/
def unlock : Watch Unit := .ask .unlock .done

/-- Stirs everyone who is parked. -/
def notifyAll : Watch Unit := .ask .notifyAll .done

/-- Parks. -/
def park : Watch Unit := .ask .park .done

/-- Looks whether a sequence with another identity is active. -/
def differs (id : Nat) : Watch Bool := .ask (.differs id) .done

/-- Wakes whoever waits for a new sequence. -/
def wake : Watch Unit := do
  lock
  notifyAll
  unlock

/-- Waits, for a limited time, until a sequence with another identity is active: who finds one does
    not park, and who has parked looks again. -/
def await (id : Nat) : Watch Bool := do
  lock
  unless ← differs id do park
  let answer ← differs id
  unlock
  pure answer

end Watch

/-- The signals of an action that is not done in one step. -/
def Action.watch? : (a : Action) → Option (Watch a.Reply)
  | .wake => some Watch.wake
  | .await id => some (Watch.await id)
  | _ => none

namespace World

variable {σ : Type}

/-- Carries out a signal for someone who is alone: nobody holds the lock, and a park is over at
    once. -/
def signal : (q : Signal) → World σ → q.Reply × World σ
  | .lock, w => ((), w)
  | .unlock, w => ((), w)
  | .notifyAll, w => ((), w)
  | .park, w => ((), w)
  | .differs id, w => (w.active.id != id, w)

/-- Alone, an action comes to the same signal by signal. -/
theorem run_watch [PinDriver σ] {a : Action} {d : Watch a.Reply} (h : a.watch? = some d)
    (w : World σ) : d.run signal w = w.act a := by
  cases a with
  | wake =>
    cases h
    rfl
  | await id =>
    cases h
    show (Dialogue.run signal (if (w.active.id != id) then _ else _) w) = _
    cases w.active.id != id <;> rfl
  | load | publish | isClosing | close | bank | sleep | yield | report => cases h

end World

end LedSequencer
