import LedSequencer.Proofs.Outputs
import LedSequencer.Proofs.SoundMaps

/-! # Faults in batches

  Two operations of the outputs work through many pins, and they treat faults in
  opposite ways: switching off carries on, and setting up stops. Which calls fail is the
  driver's affair, and it may change with every call. So the calls of a batch are first
  put to the driver as if nothing stopped them (`exchanges`), and what a batch does is
  said in terms of the answers (`batches_meet_faults`).

  * **Exchanges**: a call with its answer, and what both leave in the trace.
  * **Switching off**: all exchanges, with a warning after each fault.
  * **Setting up**: the exchanges up to the first fault.
-/

namespace LedSequencer

/-! ### Exchanges -/

/-- A call with what the driver answered. -/
structure Exchange (σ : Type) where
  /-- The call. -/
  call : Call
  /-- The answer. -/
  response : Response σ

namespace Exchange

variable {σ : Type}

/-- The call with its fault alone. -/
def attempt (x : Exchange σ) : Attempt := (x.call, x.response.fault)

/-- The error that the call comes back with: the fault, with the pin that was called. -/
def error? (x : Exchange σ) : Option PinError :=
  x.response.fault.map fun fault => { pin := x.call.pin, fault }

/-- What is left in the trace: the reports of the driver, then the call. -/
def marks (x : Exchange σ) : List Mark :=
  x.response.events.map .reported ++ [.called x.call x.response.fault]

/-- What is left in the trace when a fault is warned of. -/
def warnedMarks (x : Exchange σ) : List Mark :=
  x.marks ++ x.error?.toList.map fun error => .reported (.switchOffFailed error)

theorem filterMap_marks (x : Exchange σ) : x.marks.filterMap Mark.call? = [x.attempt] := by
  have hreports : (x.response.events.map Mark.reported).filterMap Mark.call? = [] := by
    rw [List.filterMap_map]
    exact List.filterMap_eq_nil_iff.2 fun _ _ => rfl
  rw [marks, List.filterMap_append, hreports]
  rfl

theorem filterMap_warnedMarks (x : Exchange σ) :
    x.warnedMarks.filterMap Mark.call? = [x.attempt] := by
  rw [warnedMarks, List.filterMap_append, filterMap_marks]
  cases x.error? <;> rfl

/-- The exchanges up to the first that failed, and with it. -/
def untilError : List (Exchange σ) → List (Exchange σ)
  | [] => []
  | x :: rest => if x.error?.isSome then [x] else x :: untilError rest

theorem untilError_of_none {x : Exchange σ} (hx : x.error? = none) (rest : List (Exchange σ)) :
    untilError (x :: rest) = x :: untilError rest := by
  rw [untilError, hx]
  rfl

theorem untilError_of_some {x : Exchange σ} {error : PinError} (hx : x.error? = some error)
    (rest : List (Exchange σ)) : untilError (x :: rest) = [x] := by
  rw [untilError, hx]
  rfl

theorem untilError_append {earlier : List (Exchange σ)} (h : ∀ x ∈ earlier, x.error? = none)
    (rest : List (Exchange σ)) : untilError (earlier ++ rest) = earlier ++ untilError rest := by
  induction earlier with
  | nil => rfl
  | cons x earlier ih =>
    obtain ⟨hx, hearlier⟩ := List.forall_mem_cons.1 h
    rw [List.cons_append, untilError_of_none hx, ih hearlier, List.cons_append]

theorem error?_eq_none_iff {x : Exchange σ} : x.error? = none ↔ x.response.fault = none :=
  Option.map_eq_none_iff

end Exchange

/-- The calls that switch pins off. -/
def loweringCalls (pins : List Pin) : List Call := pins.map fun pin => .set pin .low

/-- The calls that set pins up, when none of them fails. -/
def settingUpCalls (pins : List Pin) : List Call :=
  pins.flatMap fun pin => [.configure pin, .set pin .low]

section

variable {σ : Type} [PinDriver σ]

/-- The calls in order, each with what the driver answers, whatever it answers. -/
def exchanges (driver : σ) : List Call → List (Exchange σ)
  | [] => []
  | call :: rest =>
    let response := PinDriver.respond call driver
    ⟨call, response⟩ :: exchanges response.driver rest

theorem map_call_exchanges (driver : σ) (calls : List Call) :
    (exchanges driver calls).map Exchange.call = calls := by
  induction calls generalizing driver with
  | nil => rfl
  | cons call rest ih => rw [exchanges, List.map_cons, ih]

/-- Exchanges that all went well are known from the calls alone. -/
theorem map_attempt_exchanges {driver : σ} {calls : List Call}
    (h : ∀ x ∈ exchanges driver calls, x.error? = none) :
    (exchanges driver calls).map Exchange.attempt = calls.map fun call => (call, none) := by
  have hcalls := congrArg (List.map fun call => ((call, none) : Attempt))
    (map_call_exchanges driver calls)
  rw [← hcalls, List.map_map]
  apply List.map_congr_left
  intro x hx
  exact Prod.ext rfl (Exchange.error?_eq_none_iff.1 (h x hx))

end

namespace World

variable {σ : Type}

/-- The warning that a pin could not be switched off. -/
def warned (w : World σ) (error : PinError) : World σ := w.mark (.reported (.switchOffFailed error))

theorem trace_warned (w : World σ) (error : PinError) :
    (w.warned error).trace.toList = w.trace.toList ++ [.reported (.switchOffFailed error)] :=
  Array.toList_push

/-- The calls of a state whose trace has grown by exchanges, each with its attempt as the one call
    among what it leaves. -/
theorem calls_of_trace {w w' : World σ} {xs : List (Exchange σ)} {left : Exchange σ → List Mark}
    (hleft : ∀ x, (left x).filterMap Mark.call? = [x.attempt])
    (h : w'.trace.toList = w.trace.toList ++ xs.flatMap left) :
    w'.calls = w.calls ++ xs.map Exchange.attempt := by
  unfold calls
  rw [h, List.filterMap_append, List.filterMap_flatMap, List.map_eq_flatMap]
  simp only [hleft]

variable [PinDriver σ]

/-- A call with the driver's answer to it. -/
def exchange (w : World σ) (call : Call) : Exchange σ := ⟨call, PinDriver.respond call w.driver⟩

/-- The state after a call. -/
def called (w : World σ) (call : Call) : World σ := (request (.call call) w).2

theorem run_call (call : Call) (w : World σ) :
    (Wiring.call call).run request w = ((w.exchange call).error?, w.called call) := rfl

theorem trace_called (w : World σ) (call : Call) :
    (w.called call).trace.toList = w.trace.toList ++ (w.exchange call).marks := by
  simp only [called, request, Array.toList_push, toList_foldl_reported, List.append_assoc]
  rfl

/-! ### Switching off -/

theorem run_lower_cons (pin : Pin) (rest : List Pin) (w : World σ) :
    (Wiring.lower (pin :: rest)).run request w =
      (Wiring.lower rest).run request
        (match (w.exchange (.set pin .low)).error? with
        | some error => (w.called (.set pin .low)).warned error
        | none => w.called (.set pin .low)) := by
  rw [Wiring.lower, Dialogue.run_bind, run_call]
  cases (w.exchange (.set pin .low)).error? <;> rfl

/-- Switching off puts every call to the driver, and warns of each fault before the next call. -/
theorem trace_run_lower (pins : List Pin) (w : World σ) :
    ((Wiring.lower pins).run request w).2.trace.toList = w.trace.toList ++
      (exchanges w.driver (loweringCalls pins)).flatMap Exchange.warnedMarks := by
  induction pins generalizing w with
  | nil => exact (List.append_nil _).symm
  | cons pin rest ih =>
    have hcons : exchanges w.driver (loweringCalls (pin :: rest)) = w.exchange (.set pin .low) ::
        exchanges (w.called (.set pin .low)).driver (loweringCalls rest) := rfl
    have hcalled := trace_called w (.set pin .low)
    rw [run_lower_cons, hcons, List.flatMap_cons, ← List.append_assoc, Exchange.warnedMarks]
    -- a fault adds its warning, and the next call follows in both cases
    cases herror : (w.exchange (.set pin .low)).error? with
    | none =>
      rw [ih, hcalled]
      simp
    | some error =>
      rw [ih, trace_warned, hcalled]
      simp
      rfl

/-! ### Setting up -/

/-- Setting a pin up ends with the error of its first call, or with that of its second, or it goes
    on with the next pin. -/
theorem run_prepare_cons (pin : Pin) (rest : List Pin) (w : World σ) :
    (Wiring.prepare (pin :: rest)).run request w =
      match (w.exchange (.configure pin)).error? with
      | some error => (some error, w.called (.configure pin))
      | none =>
        match ((w.called (.configure pin)).exchange (.set pin .low)).error? with
        | some error => (some error, (w.called (.configure pin)).called (.set pin .low))
        | none =>
          (Wiring.prepare rest).run request
            ((w.called (.configure pin)).called (.set pin .low)) := by
  rw [Wiring.prepare, Dialogue.run_bind, run_call]
  cases (w.exchange (.configure pin)).error? with
  | some error => rfl
  | none =>
    simp only
    rw [Dialogue.run_bind, run_call]
    cases ((w.called (.configure pin)).exchange (.set pin .low)).error? <;> rfl

/-- Setting up puts the calls to the driver up to the first that fails, and answers with its
    error. -/
theorem run_prepare (pins : List Pin) (w : World σ) :
    ((Wiring.prepare pins).run request w).1 =
        (exchanges w.driver (settingUpCalls pins)).findSome? Exchange.error? ∧
      ((Wiring.prepare pins).run request w).2.trace.toList = w.trace.toList ++
        (Exchange.untilError (exchanges w.driver (settingUpCalls pins))).flatMap
          Exchange.marks := by
  induction pins generalizing w with
  | nil => exact ⟨rfl, (List.append_nil _).symm⟩
  | cons pin rest ih =>
    have hrun := run_prepare_cons pin rest w
    have hcalls : exchanges w.driver (settingUpCalls (pin :: rest)) =
        w.exchange (.configure pin) :: (w.called (.configure pin)).exchange (.set pin .low) ::
          exchanges ((w.called (.configure pin)).called (.set pin .low)).driver
            (settingUpCalls rest) := rfl
    have hup := trace_called w (.configure pin)
    generalize w.called (.configure pin) = up at hrun hcalls hup
    have hlow := trace_called up (.set pin .low)
    rw [hrun, hcalls]
    -- either call for the pin may be the first that fails
    cases hfirst : (w.exchange (.configure pin)).error? with
    | some error =>
      rw [Exchange.untilError_of_some hfirst, List.findSome?_cons, hfirst]
      exact ⟨rfl, by simp [hup]⟩
    | none =>
      rw [Exchange.untilError_of_none hfirst, List.findSome?_cons, hfirst]
      cases hsecond : (up.exchange (.set pin .low)).error? with
      | some error =>
        rw [Exchange.untilError_of_some hsecond, List.findSome?_cons, hsecond]
        exact ⟨rfl, by simp [hlow, hup]⟩
      | none =>
        obtain ⟨hanswer, htrace⟩ := ih (up.called (.set pin .low))
        rw [Exchange.untilError_of_none hsecond, List.findSome?_cons, hsecond]
        exact ⟨hanswer, by simp [htrace, hlow, hup]⟩

/-! ### Batches -/

theorem run_allOff (pins : List Pin) {w : World σ} (hw : w.isSealed = false) :
    (w.run (Activity.allOff pins)).2.trace = ((Wiring.lower pins).run request w).2.trace ∧
      (w.run (Activity.allOff pins)).2.isSealed = false := by
  simp [Activity.allOff, run, act, bank, hw, BankOp.wiring]

theorem run_sealPins (pins : List Pin) {w : World σ} (hw : w.isSealed = false) :
    (w.run (Activity.sealPins pins)).1 = true ∧
      (w.run (Activity.sealPins pins)).2.trace = ((Wiring.lower pins).run request w).2.trace ∧
      (w.run (Activity.sealPins pins)).2.isSealed = true := by
  simp [Activity.sealPins, run, act, bank, hw, BankOp.wiring]

theorem run_configureAll (pins : List Pin) (w : World σ) :
    let xs := exchanges w.driver (settingUpCalls pins)
    let up := w.run (Activity.configureAll pins)
    up.1 = xs.findSome? Exchange.error? ∧ up.2.isSealed = w.isSealed ∧
      up.2.calls = w.calls ++ (Exchange.untilError xs).map Exchange.attempt := by
  obtain ⟨hanswer, htrace⟩ := run_prepare pins w
  have hup : (w.run (Activity.configureAll pins)).1 = ((Wiring.prepare pins).run request w).1 ∧
      (w.run (Activity.configureAll pins)).2.isSealed = w.isSealed ∧
      (w.run (Activity.configureAll pins)).2.trace =
        ((Wiring.prepare pins).run request w).2.trace := by
    simp [Activity.configureAll, run, act, bank, BankOp.wiring]
  obtain ⟨hfirst, hsealed, hsame⟩ := hup
  refine ⟨hfirst.trans hanswer, hsealed, calls_of_trace Exchange.filterMap_marks ?_⟩
  rw [hsame, htrace]

/-- Setting up ends with the first call that fails. -/
theorem run_configureAll_of_error {pins : List Pin} {w : World σ}
    {earlier later : List (Exchange σ)} {x : Exchange σ} {error : PinError}
    (hsplit : exchanges w.driver (settingUpCalls pins) = earlier ++ x :: later)
    (hearlier : ∀ y ∈ earlier, y.error? = none) (hx : x.error? = some error) :
    (w.run (Activity.configureAll pins)).1 = some error ∧
      (w.run (Activity.configureAll pins)).2.calls =
        w.calls ++ (earlier ++ [x]).map Exchange.attempt := by
  obtain ⟨hfirst, _, hcalls⟩ := run_configureAll pins w
  rw [hsplit, Exchange.untilError_append hearlier, Exchange.untilError_of_some hx] at hcalls
  rw [hsplit, List.findSome?_append, List.findSome?_eq_none_iff.2 hearlier, List.findSome?_cons,
    hx] at hfirst
  exact ⟨hfirst, hcalls⟩

/-- Setting up goes through all calls when none of them fails. -/
theorem run_configureAll_of_faultless {pins : List Pin} {w : World σ}
    (h : ∀ x ∈ exchanges w.driver (settingUpCalls pins), x.error? = none) :
    (w.run (Activity.configureAll pins)).1 = none ∧
      (w.run (Activity.configureAll pins)).2.calls =
        w.calls ++ (exchanges w.driver (settingUpCalls pins)).map Exchange.attempt := by
  obtain ⟨hfirst, _, hcalls⟩ := run_configureAll pins w
  have huntil := Exchange.untilError_append h []
  rw [List.append_nil] at huntil
  rw [huntil, Exchange.untilError, List.append_nil] at hcalls
  exact ⟨hfirst.trans (List.findSome?_eq_none_iff.2 h), hcalls⟩

/-- **Batches meet faults.** The outputs are not sealed, and the driver fails as it likes.

    Switching pins off puts one call for each pin to the driver, in order, whatever it answers; each
    fault leaves a warning after its call, and nothing else is left. Sealing does the same, seals
    the outputs and answers that it did. Setting pins up ends with the first call that fails: it
    answers with the error of that call, which names its pin, and makes none of the calls after it.
    When no call fails, all of them are made, so that every pin of a channel map that was read is
    set up once and driven low right after that. -/
theorem batches_meet_faults (pins : List Pin) {w : World σ} (hw : w.isSealed = false) :
    let off := w.run (Activity.allOff pins)
    let shut := w.run (Activity.sealPins pins)
    let up := w.run (Activity.configureAll pins)
    let lowering := exchanges w.driver (loweringCalls pins)
    let settingUp := exchanges w.driver (settingUpCalls pins)
    (lowering.map Exchange.call = (pins.map fun pin => .set pin .low) ∧
      off.2.calls = w.calls ++ lowering.map Exchange.attempt ∧
      off.2.trace.toList = w.trace.toList ++ lowering.flatMap (fun x => x.marks ++
        x.error?.toList.map fun error => .reported (.switchOffFailed error)) ∧
      (∀ error, (Event.switchOffFailed error).severity = .warn) ∧
      off.2.isSealed = false) ∧
    (shut.1 = true ∧ shut.2.isSealed = true ∧ shut.2.trace = off.2.trace ∧
      shut.2.calls = w.calls ++ lowering.map Exchange.attempt) ∧
    ((settingUp.map Exchange.call = pins.flatMap fun pin => [.configure pin, .set pin .low]) ∧
      (∀ earlier x later error, settingUp = earlier ++ x :: later →
        (∀ y ∈ earlier, y.error? = none) → x.error? = some error →
        up.1 = some error ∧ error.pin = x.call.pin ∧
        up.2.calls = w.calls ++ (earlier ++ [x]).map Exchange.attempt) ∧
      ((∀ x ∈ settingUp, x.error? = none) →
        up.1 = none ∧ up.2.calls = w.calls ++ settingUp.map Exchange.attempt) ∧
      up.2.isSealed = false) ∧
    ∀ text map, ChannelMap.ofText text = .ok map →
      (∀ x ∈ exchanges w.driver (settingUpCalls map.pins), x.error? = none) →
      let ready := w.run (Activity.configureAll map.pins)
      ready.1 = none ∧ map.pins.Nodup ∧ ready.2.calls = w.calls ++
        map.pins.flatMap fun pin => [(.configure pin, none), (.set pin .low, none)] := by
  intro off shut up lowering settingUp
  obtain ⟨hoff, hoffSealed⟩ := run_allOff pins hw
  obtain ⟨hanswer, hshut, hshutSealed⟩ := run_sealPins pins hw
  have hlowered := trace_run_lower pins w
  have hoffTrace : off.2.trace.toList = w.trace.toList ++ lowering.flatMap Exchange.warnedMarks :=
    hoff ▸ hlowered
  have hshutTrace : shut.2.trace.toList = w.trace.toList ++
      lowering.flatMap Exchange.warnedMarks := hshut ▸ hlowered
  -- what is left of the parts is that calls are read off the trace, and the error's pin
  refine ⟨⟨map_call_exchanges _ _, ?_, hoffTrace, fun _ => rfl, hoffSealed⟩,
    ⟨hanswer, hshutSealed, hshut.trans hoff.symm, ?_⟩,
    ⟨map_call_exchanges _ _, ?_, run_configureAll_of_faultless, ?_⟩, ?_⟩
  · exact calls_of_trace Exchange.filterMap_warnedMarks hoffTrace
  · exact calls_of_trace Exchange.filterMap_warnedMarks hshutTrace
  · intro earlier x later error hsplit hearlier hx
    obtain ⟨hfirst, hcalls⟩ := run_configureAll_of_error hsplit hearlier hx
    refine ⟨hfirst, ?_, hcalls⟩
    obtain ⟨fault, _, rfl⟩ := Option.map_eq_some_iff.1 hx
    rfl
  · exact (run_configureAll pins w).2.1.trans hw
  · intro text map hmap hfaults ready
    obtain ⟨hfirst, hcalls⟩ := run_configureAll_of_faultless hfaults
    refine ⟨hfirst, (ChannelMap.isSound_of_ofText hmap).pins, ?_⟩
    rw [hcalls, map_attempt_exchanges hfaults, settingUpCalls, List.map_flatMap]
    rfl

/-- A driver without pins that refuses to write pin 2. -/
def stubborn : Gate Hardware where
  inner := .nothing
  refusedSets := [⟨2⟩]
  refusedConfigures := []

/-- The pin in the middle is refused: switching off goes past it with a warning, and setting up ends
    there. The one pin of a map that was read is not refused, and it is set up. -/
theorem batches_meet_faults_stubborn :
    let w := World.start stubborn
    let refused : Fault := .other "write refused"
    let lamp : ChannelMap :=
      { leds := [{ name := "lamp", channels := [{ letter := 'r', pin := ⟨4⟩ }] }] }
    let off := w.run (Activity.allOff [⟨1⟩, ⟨2⟩, ⟨3⟩])
    let shut := w.run (Activity.sealPins [⟨1⟩, ⟨2⟩, ⟨3⟩])
    let up := w.run (Activity.configureAll [⟨1⟩, ⟨2⟩, ⟨3⟩])
    let ready := w.run (Activity.configureAll lamp.pins)
    w.isSealed = false ∧
      off.2.trace.toList = [.called (.set ⟨1⟩ .low) none, .called (.set ⟨2⟩ .low) (some refused),
        .reported (.switchOffFailed { pin := ⟨2⟩, fault := refused }),
        .called (.set ⟨3⟩ .low) none] ∧
      shut.1 = true ∧ shut.2.isSealed = true ∧
      up.1 = some { pin := ⟨2⟩, fault := refused } ∧
      up.2.calls = [(.configure ⟨1⟩, none), (.set ⟨1⟩ .low, none), (.configure ⟨2⟩, none),
        (.set ⟨2⟩ .low, some refused)] ∧
      ChannelMap.ofText "[lamp]\nr = 4\n" = .ok lamp ∧ ready.1 = none ∧
      ready.2.calls = [(.configure ⟨4⟩, none), (.set ⟨4⟩ .low, none)] := by
  intro w refused lamp off shut up ready
  obtain ⟨⟨_, _, hoff, _⟩, ⟨hanswer, hsealed, _⟩, ⟨_, hup, _⟩, hready⟩ :=
    batches_meet_faults [⟨1⟩, ⟨2⟩, ⟨3⟩] (w := w) rfl
  -- the fourth call is the first that fails
  obtain ⟨hfirst, _, hcalls⟩ := hup ((exchanges w.driver (settingUpCalls [⟨1⟩, ⟨2⟩, ⟨3⟩])).take 3)
    ⟨.set ⟨2⟩ .low, { driver := stubborn, fault := some refused, events := [] }⟩ _
    { pin := ⟨2⟩, fault := refused } rfl (by decide) rfl
  have hmap : ChannelMap.ofText "[lamp]\nr = 4\n" = .ok lamp := by decide +kernel
  obtain ⟨hnone, _, hset⟩ := hready _ lamp hmap (by decide)
  exact ⟨rfl, hoff, hanswer, hsealed, hfirst, hcalls, hmap, hnone, hset⟩

end World

end LedSequencer
