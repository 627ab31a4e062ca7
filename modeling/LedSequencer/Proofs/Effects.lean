import LedSequencer.Proofs.Deeds

/-! # Effects of activities

  A player that has looked, a session and an installer do the same whatever the driver
  answers and whether the outputs are sealed or not: a fault changes nothing but what is
  reported. This module lists the effects of each activity, and says what effects come
  to in the shared state.

  * **Effects**: the actions that do not count are looks, waits, wakes and reports.
  * **Players and lines**: the effects of each activity.
  * **Pacing**: sleeps and yields, and which actions make them.
  * **Passages**: what effects come to when nobody comes in between.
  * **Shutdowns**: they depend on the seal, and have a lemma of their own.
-/

namespace LedSequencer

/-! ### Effects -/

/-- Whether an action does more than looking, waiting, waking and reporting. -/
def Action.isEffect : Action → Bool
  | .publish _ | .close | .bank _ | .sleep _ | .yield => true
  | .load | .wake | .await _ | .isClosing | .report _ => false

/-- Whether an action leaves the seal and the closing flag alone and sets nothing up. -/
def Action.isPlain (a : Action) : Bool := !a.isSettingUp && !a.isSealing && !a.isClose

/-- Whatever the replies are, an activity has these effects and comes to this answer. -/
abbrev Activity.HasEffects {α : Type} (d : Activity α) (effects : List Action) (answer : α) :
    Prop := d.AmountsTo Action.isEffect answer effects

/-! ### Players and lines -/

/-- What a player does to carry an operation out. -/
def Operation.effects : Operation → List Action
  | .on pin => [.bank (.set pin .high)]
  | .off pin => [.bank (.set pin .low)]
  | .pause length => [.sleep length]
  | .rewind => []

/-- What a player of a sequence does in a step: it carries an operation out, and gives way when the
    sequence is static. -/
def Sequence.effects (s : Sequence) (op : Operation) : List Action :=
  op.effects ++ if s.isStatic then [.yield] else []

namespace Player

/-- What a player does in its next step. -/
def effects (p : Player) : List Action := p.held.sequence.effects p.next

/-- A fault while a pin is driven is reported, and that is all. -/
theorem hasEffects_write (pin : Pin) (level : Level) :
    (write pin level).HasEffects [.bank (.set pin level)] () := by
  apply Dialogue.AmountsTo.asks rfl
  intro reply
  cases reply with
  | none => exact .done
  | some error => exact .aside rfl fun _ => .done

theorem hasEffects_carryOut (op : Operation) : (carryOut op).HasEffects op.effects () := by
  cases op with
  | on pin => exact hasEffects_write pin .high
  | off pin => exact hasEffects_write pin .low
  | pause length => exact .asks rfl fun _ => .done
  | rewind => exact .done

/-- What a player that has looked does depends on the sequence and the place it is at. -/
theorem hasEffects_goOn (p : Player) : p.goOn.HasEffects p.effects (p.next, p.advance) := by
  apply (hasEffects_carryOut p.next).bind
  by_cases hstatic : p.held.sequence.isStatic = true
  · rw [hstatic]
    exact .asks rfl fun _ => .done
  · rw [Bool.eq_false_iff.2 hstatic]
    exact .done

theorem isPlain_of_mem_effects {p : Player} {a : Action} (ha : a ∈ p.effects) :
    a.isPlain = true := by
  rcases List.mem_append.1 ha with hop | hyield
  · generalize p.next = op at hop
    cases op with
    | on pin | off pin | pause length =>
      rw [List.mem_singleton.1 hop]
      rfl
    | rewind => cases hop
  · split at hyield
    · rw [List.mem_singleton.1 hyield]
      rfl
    · cases hyield

end Player

namespace Activity

theorem hasEffects_reportAll (events : List Event) : (reportAll events).HasEffects [] () := by
  induction events with
  | nil => exact .done
  | cons event rest ih => exact .aside rfl fun _ => ih

theorem hasEffects_install (s : Sequence) : (install s).HasEffects [.publish s] () := by
  apply Dialogue.AmountsTo.aside rfl
  intro _
  apply Dialogue.AmountsTo.asks rfl
  intro _
  exact .aside rfl fun _ => .done

end Activity

namespace Session

/-- What comes of a line: the result and the session after it. -/
def afterLine (s : Session) (line : String) : Except CompileError Unit × Session :=
  match compile line s.map s.led with
  | .ok compiled => (.ok (), { s with led := compiled.led })
  | .error error => (.error error, s)

/-- What a session does for a line: all pins of its map go off, and a line that compiles is
    published. -/
def effects (s : Session) (line : String) : List Action :=
  .bank (.allOff s.map.pins) ::
    match compile line s.map s.led with
    | .ok compiled => [.publish compiled.sequence]
    | .error _ => []

theorem afterLine_of_ok {s : Session} {line : String} {compiled : Compiled}
    (h : compile line s.map s.led = .ok compiled) :
    s.afterLine line = (.ok (), { s with led := compiled.led }) := by rw [afterLine, h]

theorem afterLine_of_error {s : Session} {line : String} {error : CompileError}
    (h : compile line s.map s.led = .error error) : s.afterLine line = (.error error, s) := by
  rw [afterLine, h]

/-- A line leaves the session its map. -/
theorem map_afterLine (s : Session) (line : String) : (s.afterLine line).2.map = s.map := by
  unfold afterLine
  split <;> rfl

theorem effects_of_ok {s : Session} {line : String} {compiled : Compiled}
    (h : compile line s.map s.led = .ok compiled) :
    s.effects line = [.bank (.allOff s.map.pins), .publish compiled.sequence] := by
  rw [effects, h]

theorem effects_of_error {s : Session} {line : String} {error : CompileError}
    (h : compile line s.map s.led = .error error) :
    s.effects line = [.bank (.allOff s.map.pins)] := by rw [effects, h]

/-- What a session does for a line does not depend on faults either. -/
theorem hasEffects_handleLine (s : Session) (line : String) :
    (s.handleLine line).HasEffects (s.effects line) (s.afterLine line) := by
  have hreports := Activity.hasEffects_reportAll (compilation line s.map s.led).notes
  apply Dialogue.AmountsTo.asks rfl
  intro _
  apply hreports.bind
  unfold afterLine compile
  cases (compilation line s.map s.led).result with
  | ok compiled =>
    exact (Activity.hasEffects_install compiled.sequence).bind .done
  | error error => exact .done

theorem isPlain_of_mem_effects {s : Session} {line : String} {a : Action}
    (ha : a ∈ s.effects line) : a.isPlain = true := by
  rcases List.mem_cons.1 ha with hoff | hpublish
  · rw [hoff]
    rfl
  · split at hpublish
    · rw [List.mem_singleton.1 hpublish]
      rfl
    · cases hpublish

end Session

/-! ### Pacing -/

/-- A mark that is a sleep or a yield. -/
def Mark.pace? (m : Mark) : Option Mark := if m.isYield || m.sleep?.isSome then some m else none

/-- The sleeps and yields among everything that has left the sequencer, in order. -/
def World.pacing {σ : Type} (w : World σ) : List Mark := w.trace.toList.filterMap Mark.pace?

/-- The sleep or the yield of an action. -/
def Action.pacing : Action → List Mark
  | .sleep length => [.slept length]
  | .yield => [.yielded]
  | _ => []

/-- The sequence that an action makes active. -/
def Action.published : Action → List Sequence
  | .publish s => [s]
  | _ => []

/-- A step makes nothing active. -/
theorem Player.published_effects (p : Player) : p.effects.flatMap Action.published = [] := by
  rw [effects, Sequence.effects, List.flatMap_append]
  cases p.next <;> cases p.held.sequence.isStatic <;> rfl

/-- A session switches all pins of its map off. -/
theorem Session.calls_effects (s : Session) (line : String) :
    (s.effects line).flatMap (Action.calls false) = s.map.pins.map fun pin => .set pin .low := by
  unfold effects
  split
  · exact List.append_nil _
  · exact List.append_nil _

namespace World

variable {σ : Type}

theorem pacing_mark (w : World σ) (m : Mark) :
    (w.mark m).pacing = w.pacing ++ [m].filterMap Mark.pace? := by
  rw [pacing, mark, Array.toList_push, List.filterMap_append]
  rfl

variable [PinDriver σ]

theorem pacing_request (r : Request) (w : World σ) : (request r w).2.pacing = w.pacing := by
  cases r with
  | report event => exact (pacing_mark w _).trans (List.append_nil _)
  | call c =>
    -- what the driver reports does not count, and neither does the call
    have hreports := filterMap_foldl_reported Mark.pace? fun _ => rfl
    simp only [pacing, request, Array.toList_push, List.filterMap_append, hreports]
    exact List.append_nil _

theorem pacing_run_request {α : Type} (d : Wiring α) (w : World σ) :
    (d.run request w).2.pacing = w.pacing := by
  induction d generalizing w with
  | done a => rfl
  | ask r next ih =>
    rw [Dialogue.run_ask, ih]
    exact pacing_request r w

theorem pacing_act (a : Action) (w : World σ) : (w.act a).2.pacing = w.pacing ++ a.pacing := by
  cases a with
  | bank op => exact (pacing_run_request _ w).trans (List.append_nil _).symm
  | sleep length => exact pacing_mark w _
  | yield => exact pacing_mark w _
  | report event => exact pacing_mark w _
  | load | publish | wake | await | isClosing | close => exact (List.append_nil _).symm

end World

/-! ### Passages -/

namespace World

variable {σ : Type}

/-- What gets through to the driver of the calls that effects make: sealed outputs drop all. -/
def letThrough (w : World σ) (effects : List Action) : List Call :=
  effects.flatMap (Action.calls w.isSealed)

theorem letThrough_eq (w : World σ) (effects : List Action) :
    w.letThrough effects = if w.isSealed then [] else effects.flatMap (Action.calls false) := by
  unfold letThrough
  cases w.isSealed with
  | false => rfl
  | true =>
    apply List.flatMap_eq_nil_iff.2
    intro a _
    exact a.calls_of_isSealed

variable [PinDriver σ]

/-- The way from one state to another by some effects. The seal and the closing flag stay. -/
structure Passed (w w' : World σ) (effects : List Action) : Prop where
  closing : w'.closing = w.closing
  isSealed : w'.isSealed = w.isSealed
  active : w'.active = (effects.flatMap Action.published).foldl Published.next w.active
  called : Called w w' (w.letThrough effects)
  pacing : w'.pacing = w.pacing ++ effects.flatMap Action.pacing

theorem Passed.refl (w : World σ) : Passed w w [] :=
  ⟨rfl, rfl, rfl, .nothing rfl rfl, (List.append_nil _).symm⟩

theorem Passed.trans {w w' w'' : World σ} {effects more : List Action} (h : Passed w w' effects)
    (h' : Passed w' w'' more) : Passed w w'' (effects ++ more) := by
  have hlet : w.letThrough (effects ++ more) = w.letThrough effects ++ w'.letThrough more := by
    unfold letThrough
    rw [h.isSealed, List.flatMap_append]
  constructor
  · exact h'.closing.trans h.closing
  · exact h'.isSealed.trans h.isSealed
  · rw [h'.active, h.active, List.flatMap_append, List.foldl_append]
  · rw [hlet]
    exact h.called.trans h'.called
  · rw [h'.pacing, h.pacing, List.flatMap_append, List.append_assoc]

theorem passed_act {a : Action} (ha : a.isPlain = true) (w : World σ) :
    Passed w (w.act a).2 [a] := by
  obtain ⟨⟨hup, hseal⟩, hclose⟩ : (a.isSettingUp = false ∧ a.isSealing = false) ∧
      a.isClose = false := by simpa [Action.isPlain] using ha
  have hcalls : w.letThrough [a] = a.calls w.isSealed := List.flatMap_singleton ..
  constructor
  · rw [closing_act, hclose, Bool.or_false]
  · rw [isSealed_act, hseal, Bool.or_false]
  · rw [active_act]
    cases a <;> rfl
  · rw [hcalls]
    exact called_act hup w
  · rw [pacing_act, List.flatMap_singleton]

/-- An action without effects goes unnoticed. -/
theorem passed_aside {a : Action} (ha : a.isEffect = false) (w : World σ) :
    Passed w (w.act a).2 [] := by
  cases a with
  | publish | close | bank | sleep | yield => cases ha
  | load | wake | await | isClosing => exact .refl w
  | report event =>
    have hpassed := passed_act (a := .report event) rfl w
    exact ⟨hpassed.closing, hpassed.isSealed, hpassed.active, hpassed.called, hpassed.pacing⟩

/-- What an activity comes to is known from its effects. -/
theorem passed_run {α : Type} {d : Activity α} {effects : List Action} {answer : α}
    (h : d.HasEffects effects answer) (hplain : ∀ a ∈ effects, a.isPlain = true) (w : World σ) :
    (w.run d).1 = answer ∧ Passed w (w.run d).2 effects := by
  apply h.run (P := fun effects w w' => Passed w w' effects)
  · intro w
    exact .refl w
  · intro effects more w w' w'' hfirst hthen
    exact hfirst.trans hthen
  · intro a w ha
    exact passed_aside ha w
  · intro a w ha
    exact passed_act (hplain a ha) w

/-- The outputs are not sealed and the driver never fails. -/
structure IsReady (w : World σ) : Prop where
  isSealed_eq : w.isSealed = false
  isReliable : IsReliable w.driver

/-- On outputs that are ready all calls get through and go well, and the outputs stay ready. -/
theorem Passed.of_isReady {w w' : World σ} {effects : List Action} (h : Passed w w' effects)
    (hw : w.IsReady) : w'.IsReady ∧ w'.calls =
      w.calls ++ (effects.flatMap (Action.calls false)).map fun call => (call, none) := by
  obtain ⟨hreliable, hcalls⟩ := h.called.of_isReliable hw.isReliable
  refine ⟨⟨h.isSealed.trans hw.isSealed_eq, hreliable⟩, ?_⟩
  rw [hcalls, letThrough, hw.isSealed_eq]

/-- Identities only grow. -/
theorem Passed.id_le {w w' : World σ} {effects : List Action} (h : Passed w w' effects) :
    w.active.id ≤ w'.active.id := by
  rw [h.active]
  generalize effects.flatMap Action.published = published
  generalize w.active = active
  induction published generalizing active with
  | nil => exact Nat.le_refl _
  | cons s rest ih => exact Nat.le_trans (Nat.le_succ active.id) (ih (active.next s))

theorem passed_goOn (p : Player) (w : World σ) :
    (w.run p.goOn).1 = (p.next, p.advance) ∧ Passed w (w.run p.goOn).2 p.effects :=
  passed_run p.hasEffects_goOn (fun _ => Player.isPlain_of_mem_effects) w

/-- A step is what the player does once it has taken up the active sequence. It makes no sequence
    active. -/
theorem passed_step (p : Player) (w : World σ) :
    (w.run p.step).1 = ((p.adopt w.active).next, (p.adopt w.active).advance) ∧
      Passed w (w.run p.step).2 (p.adopt w.active).effects ∧
      (w.run p.step).2.active = w.active := by
  obtain ⟨hanswer, hpassed⟩ := passed_goOn (p.adopt w.active) w
  have hactive := hpassed.active
  rw [Player.published_effects] at hactive
  exact ⟨hanswer, hpassed, hactive⟩

theorem passed_install (s : Sequence) (w : World σ) :
    Passed w (w.run (Activity.install s)).2 [.publish s] := by
  have hplain : ∀ a ∈ [Action.publish s], a.isPlain = true := by
    intro a ha
    rw [List.mem_singleton.1 ha]
    rfl
  exact (passed_run (Activity.hasEffects_install s) hplain w).2

theorem passed_handleLine (s : Session) (line : String) (w : World σ) :
    (w.run (s.handleLine line)).1 = s.afterLine line ∧
      Passed w (w.run (s.handleLine line)).2 (s.effects line) :=
  passed_run (s.hasEffects_handleLine line) (fun _ => Session.isPlain_of_mem_effects) w

end World

/-! ### Shutdowns -/

namespace World

variable {σ : Type} [PinDriver σ]

/-- A shutdown closes and seals, whatever was before. It answers whether the outputs were open, and
    neither the active sequence nor the pacing is touched. -/
theorem run_shutDown (pins : List Pin) (w : World σ) :
    (w.run (Activity.shutDown pins)).1 = !w.isSealed ∧
      (w.run (Activity.shutDown pins)).2.closing = true ∧
      (w.run (Activity.shutDown pins)).2.isSealed = true ∧
      (w.run (Activity.shutDown pins)).2.active = w.active ∧
      (w.run (Activity.shutDown pins)).2.pacing = w.pacing := by
  let closed := (w.act .close).2
  let shut := (closed.act (.bank (.seal pins))).2
  have hreply : (closed.act (.bank (.seal pins))).1 = !w.isSealed := reply_seal pins closed
  have hclosing : shut.closing = true := by
    rw [closing_act, closing_act]
    simp [Action.isClose]
  have hsealed : shut.isSealed = true := by
    rw [isSealed_act]
    exact Bool.or_true _
  have hactive : shut.active = w.active := by
    rw [active_act, active_act]
  have hpacing : shut.pacing = w.pacing := by
    rw [pacing_act, pacing_act]
    simp [Action.pacing]
  have hrun : w.run (Activity.shutDown pins) = shut.run (do
      if (closed.act (.bank (.seal pins))).1 then Activity.report .outputsOff
      pure (closed.act (.bank (.seal pins))).1) := rfl
  rw [hrun, hreply]
  cases w.isSealed with
  | true => exact ⟨rfl, hclosing, hsealed, hactive, hpacing⟩
  | false =>
    -- the first shutdown is reported
    refine ⟨rfl, hclosing, hsealed, hactive, ?_⟩
    show (shut.act (.report .outputsOff)).2.pacing = w.pacing
    rw [pacing_act, hpacing]
    exact List.append_nil _

/-- A shutdown switches the pins off if the outputs are open, and makes no other call. -/
theorem called_shutDown (pins : List Pin) (w : World σ) :
    Called w (w.run (Activity.shutDown pins)).2 (w.letThrough [.bank (.seal pins)]) := by
  let closed := (w.act .close).2
  let shut := (closed.act (.bank (.seal pins))).2
  have hclosed : Called w closed [] := .nothing rfl rfl
  have hshut : Called closed shut (w.letThrough [.bank (.seal pins)]) := by
    have hcalled := called_act (a := .bank (.seal pins)) rfl closed
    rwa [letThrough, List.flatMap_singleton]
  have hreported : Called shut (w.run (Activity.shutDown pins)).2 [] := by
    show Called shut (shut.run (do
      if (closed.act (.bank (.seal pins))).1 then Activity.report .outputsOff
      pure (closed.act (.bank (.seal pins))).1)).2 []
    cases (closed.act (.bank (.seal pins))).1 with
    | true => exact called_act (a := .report .outputsOff) rfl shut
    | false => exact .nothing rfl rfl
  have hcalled := hclosed.trans (hshut.trans hreported)
  rwa [List.append_nil] at hcalled

end World

end LedSequencer
