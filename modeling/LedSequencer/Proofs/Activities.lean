import LedSequencer.Playback.Player
import LedSequencer.Playback.Session
import LedSequencer.Proofs.Conduct

/-! # What activities ask

  One lemma for each activity says what it does under every conduct that lets it: which
  actions the conduct has to allow, and what comes of the activity then. Whoever reasons
  about one conduct cites these and looks into no activity.
-/

namespace LedSequencer

/-- Whether an action leaves the shared state as it is and looks at nothing in it. -/
def Action.isPassing : Action → Bool
  | .wake | .sleep _ | .yield | .report _ => true
  | _ => false

/-- A conduct that allows everyone to wake, sleep, yield and report. -/
def Conduct.Lenient (c : Conduct Action Action.Reply) : Prop :=
  ∀ a : Action, a.isPassing = true → c.allows a

/-- The conduct of everyone who does nothing of some kind. -/
def Conduct.avoiding (kind : Action → Bool) : Conduct Action Action.Reply where
  allows a := kind a = false
  expects _ _ := True

theorem Conduct.lenient_avoiding {kind : Action → Bool}
    (hkind : ∀ a : Action, a.isPassing = true → kind a = false) :
    (Conduct.avoiding kind).Lenient := hkind

variable {c : Conduct Action Action.Reply}

namespace Activity

theorem follows_reportAll (hc : c.Lenient) (events : List Event) :
    (reportAll events).Follows c fun _ => True := by
  induction events with
  | nil => trivial
  | cons event rest ih => exact ⟨hc _ rfl, fun _ _ => ih⟩

/-- Making a sequence active is a publication among reports and wakes. -/
theorem follows_install (hc : c.Lenient) {s : Sequence} (hpublish : c.allows (.publish s)) :
    (install s).Follows c fun _ => True :=
  ⟨hc _ rfl, fun _ _ => ⟨hpublish, fun _ _ => ⟨hc _ rfl, fun _ _ => trivial⟩⟩⟩

/-- A shutdown closes, seals and answers what the sealing answered. -/
theorem follows_shutDown (hc : c.Lenient) {pins : List Pin} (hclose : c.allows .close)
    (hseal : c.allows (.bank (.seal pins))) :
    (shutDown pins).Follows c (c.expects (.bank (.seal pins))) := by
  refine ⟨hclose, fun _ _ => ⟨hc _ rfl, fun _ _ => ⟨hseal, fun isFirst hfirst => ?_⟩⟩⟩
  cases isFirst with
  | false => exact hfirst
  | true => exact ⟨hc _ rfl, fun _ _ => hfirst⟩

end Activity

namespace Player

/-! ### Players -/

theorem adopt_of_eq {p : Player} {active : Published} (h : active.id = p.held.id) :
    p.adopt active = p := by
  rw [adopt, if_pos h]

theorem adopt_of_ne {p : Player} {active : Published} (h : active.id ≠ p.held.id) :
    p.adopt active = start active := by
  rw [adopt, if_neg h]

theorem held_adopt (p : Player) (active : Published) :
    (p.adopt active).held = p.held ∨ (p.adopt active).held = active := by
  unfold adopt
  split
  · exact .inl rfl
  · exact .inr rfl

theorem advance_of_rewind {p : Player} (h : p.next = .rewind) :
    p.advance = { p with cursor := 0 } := by
  rw [advance, h]

theorem advance_of_ne {p : Player} (h : p.next ≠ .rewind) :
    p.advance = { p with cursor := p.cursor + 1 } := by
  unfold advance
  split
  · next hrewind => exact absurd hrewind h
  · rfl

@[simp] theorem held_advance (p : Player) : p.advance.held = p.held := by
  unfold advance
  split <;> rfl

theorem follows_write (hc : c.Lenient) {pin : Pin} {level : Level}
    (hset : c.allows (.bank (.set pin level))) : (write pin level).Follows c fun _ => True := by
  refine ⟨hset, ?_⟩
  intro reply _
  cases reply with
  | none => trivial
  | some error => exact ⟨hc _ rfl, fun _ _ => trivial⟩

/-- An operation drives the pin of its transition and no other. -/
theorem follows_carryOut (hc : c.Lenient) {op : Operation}
    (hset : ∀ pin level, op.transition = some (pin, level) → c.allows (.bank (.set pin level))) :
    (carryOut op).Follows c fun _ => True := by
  cases op with
  | on pin => exact follows_write hc (hset pin .high rfl)
  | off pin => exact follows_write hc (hset pin .low rfl)
  | pause length => exact ⟨hc _ rfl, fun _ _ => trivial⟩
  | rewind => trivial

/-- What is left of a step once the player has looked at the active sequence. -/
def goOn (p : Player) : Activity (Operation × Player) := do
  carryOut p.next
  if p.held.sequence.isStatic then Activity.yield
  pure (p.next, p.advance)

theorem follows_goOn (hc : c.Lenient) {p : Player}
    (hset : ∀ pin level, p.next.transition = some (pin, level) →
      c.allows (.bank (.set pin level))) :
    p.goOn.Follows c fun stepped => stepped = (p.next, p.advance) := by
  apply (follows_carryOut hc hset).bind
  intro _ _
  split
  · exact ⟨hc _ rfl, fun _ _ => rfl⟩
  · exact rfl

/-- A step looks at the active sequence and does the next operation of the player that has, if need
    be, taken that sequence up. -/
theorem follows_step (hc : c.Lenient) {p : Player} (hload : c.allows .load)
    (hset : ∀ active, c.expects .load active → ∀ pin level,
      (p.adopt active).next.transition = some (pin, level) → c.allows (.bank (.set pin level))) :
    p.step.Follows c fun stepped => ∃ active, c.expects .load active ∧
      stepped = ((p.adopt active).next, (p.adopt active).advance) := by
  refine ⟨hload, ?_⟩
  intro active hactive
  apply (follows_goOn hc (hset active hactive)).imp
  intro stepped hstepped
  exact ⟨active, hactive, hstepped⟩

/-- What is left of a round of a player that has seen that the sequencer does not close. -/
def playOn (p : Player) : Activity (Option Player) := do
  let ready ← if p.held.sequence.isEmpty then Activity.await p.held.id else pure true
  if ready then
    let stepped ← p.step
    pure (some stepped.2)
  else pure (some p)

/-- The rest of a round is a wait, when the player holds an idle sequence, and a step. -/
theorem follows_playOn (hc : c.Lenient) {p : Player} (hawait : c.allows (.await p.held.id))
    (hload : c.allows .load) (hset : ∀ pin level, c.allows (.bank (.set pin level))) :
    p.playOn.Follows c fun _ => True := by
  have hstep : (p.step >>= fun stepped => pure (some stepped.2)).Follows c fun _ => True :=
    (follows_step hc hload fun _ _ pin level _ => hset pin level).bind fun _ _ => trivial
  unfold playOn
  cases p.held.sequence.isEmpty with
  | false => exact hstep
  | true =>
    refine ⟨hawait, fun ready _ => ?_⟩
    cases ready with
    | false => trivial
    | true => exact hstep

end Player

namespace Session

/-! ### Sessions -/

/-- What is left of a line once all pins have been switched off. -/
def afterSweep (s : Session) (line : String) : Activity (Except CompileError Unit × Session) := do
  let c := compilation line s.map s.led
  Activity.reportAll c.notes
  match c.result with
  | .error error => pure (.error error, s)
  | .ok compiled =>
    Activity.install compiled.sequence
    pure (.ok (), { s with led := compiled.led })

/-- A line switches off the pins of the session's map and, when it compiles, makes the sequence that
    it compiles to the active one. -/
theorem follows_handleLine (hc : c.Lenient) {s : Session} {line : String}
    (hoff : c.allows (.bank (.allOff s.map.pins)))
    (hpublish : ∀ compiled, compile line s.map s.led = .ok compiled →
      c.allows (.publish compiled.sequence)) :
    (s.handleLine line).Follows c fun handled => handled.2.map = s.map := by
  refine ⟨hoff, ?_⟩
  intro _ _
  apply (Activity.follows_reportAll hc _).bind
  intro _ _
  split
  · exact rfl
  · next compiled hcompiled =>
    exact (Activity.follows_install hc (hpublish compiled hcompiled)).bind fun _ _ => rfl

end Session

end LedSequencer
