import LedSequencer.Proofs.Shutdown
import Mathlib.Data.List.Forall2

/-! # What the seal holds off

  A sequencer that has shut down must leave its pins alone. Sealed outputs drop every
  write of a single pin, every switching off and every further sealing, but they still
  set pins up: `calls_after_seal` says what can reach the driver once the outputs are
  sealed, and `configured_after_shutDown` shows that something does.
-/

namespace LedSequencer

/-! ### Setting pins up -/

/-- The calls that setting pins up makes: each pin in order is set up and driven low, up to the
    first call that fails. -/
inductive SetUp : List Pin → List Attempt → Prop where
  | nothing : SetUp [] []
  | refused (pin : Pin) (rest : List Pin) (fault : Fault) :
      SetUp (pin :: rest) [(.configure pin, some fault)]
  | notLowered (pin : Pin) (rest : List Pin) (fault : Fault) :
      SetUp (pin :: rest) [(.configure pin, none), (.set pin .low, some fault)]
  | prepared (pin : Pin) {rest : List Pin} {attempts : List Attempt} (hrest : SetUp rest attempts) :
      SetUp (pin :: rest) ((.configure pin, none) :: (.set pin .low, none) :: attempts)

/-- Setting up calls the driver, unless there is no pin. -/
theorem SetUp.eq_nil_iff {pins : List Pin} {attempts : List Attempt} (h : SetUp pins attempts) :
    attempts = [] ↔ pins = [] := by
  cases h <;> simp

/-- Setting up switches no pin on. -/
theorem SetUp.set_high_notMem {pins : List Pin} {attempts : List Attempt} (h : SetUp pins attempts)
    (pin : Pin) (fault : Option Fault) : (.set pin .high, fault) ∉ attempts := by
  induction h with
  | nothing | refused | notLowered => simp
  | prepared p hrest ih => simpa using ih

theorem Action.isSettingUp_of_isPassing {a : Action} (ha : a.isPassing = true) :
    a.isSettingUp = false := by
  cases a with
  | wake | sleep | yield | report => rfl
  | load | publish | await | isClosing | close | bank => cases ha

namespace World

variable {σ α : Type} [PinDriver σ]

theorem setUp_run_prepare (pins : List Pin) (w : World σ) :
    ∃ attempts, ((Wiring.prepare pins).run request w).2.calls = w.calls ++ attempts ∧
      SetUp pins attempts := by
  induction pins generalizing w with
  | nil => exact ⟨[], (List.append_nil _).symm, .nothing⟩
  | cons pin rest ih =>
    have hcall := calls_request_call (.configure pin) w
    cases hfault : (request (.call (.configure pin)) w).1 with
    | some fault =>
      refine ⟨_, ?_, .refused pin rest fault⟩
      simp only [Wiring.prepare, Wiring.call, Dialogue.bind_ask, Dialogue.run_ask,
        Dialogue.bind_done, hfault, Option.map_some, Dialogue.pure_eq_done, Dialogue.run_done]
      rw [hcall, hfault]
    | none =>
      let up := (request (.call (.configure pin)) w).2
      have hcall' := calls_request_call (.set pin .low) up
      cases hfault' : (request (.call (.set pin .low)) up).1 with
      | some fault =>
        refine ⟨_, ?_, .notLowered pin rest fault⟩
        simp only [Wiring.prepare, Wiring.call, Dialogue.bind_ask, Dialogue.run_ask,
          Dialogue.bind_done, hfault, hfault', up, Option.map_some, Option.map_none,
          Dialogue.pure_eq_done, Dialogue.run_done]
        rw [hcall', hfault', hcall, hfault, List.append_assoc]
        rfl
      | none =>
        obtain ⟨attempts, hattempts, hrest⟩ := ih (request (.call (.set pin .low)) up).2
        refine ⟨_, ?_, .prepared pin hrest⟩
        simp only [Wiring.prepare, Wiring.call, Dialogue.bind_ask, Dialogue.run_ask,
          Dialogue.bind_done, hfault, hfault', up, Option.map_none]
        rw [hattempts, hcall', hfault', hcall, hfault, List.append_assoc, List.append_assoc]
        rfl

theorem setUp_act_configureAll (pins : List Pin) (w : World σ) :
    ∃ attempts, (w.act (.bank (.configureAll pins))).2.calls = w.calls ++ attempts ∧
      SetUp pins attempts := by
  simp only [act, bank, BankOp.wiring, Dialogue.run_bind]
  exact setUp_run_prepare pins w

/-! ### Sealed outputs -/

/-- Sealed outputs stay sealed, whatever is done. -/
theorem isSealed_run (d : Activity α) {w : World σ} (hw : w.isSealed = true) :
    (w.run d).2.isSealed = true := by
  induction d generalizing w with
  | done a => exact hw
  | ask a next ih =>
    apply ih
    rw [isSealed_act, hw, Bool.true_or]

/-- What sets nothing up makes no call on sealed outputs. -/
theorem calls_run_of_sealed {promise : α → Prop} {d : Activity α}
    (hd : d.Follows (.avoiding Action.isSettingUp) promise) {w : World σ} (hw : w.isSealed = true) :
    (w.run d).2.calls = w.calls := by
  induction d generalizing w with
  | done a => rfl
  | ask a next ih =>
    obtain ⟨hup, hnext⟩ := hd
    have hsealed : (w.act a).2.isSealed = true := by rw [isSealed_act, hw, Bool.true_or]
    obtain ⟨attempts, hcalls, hmap, _⟩ := called_act hup w
    rw [hw, Action.calls_of_isSealed, List.map_eq_nil_iff] at hmap
    rw [hmap, List.append_nil] at hcalls
    exact (ih _ (hnext _ trivial) hsealed).trans hcalls

end World

/-! ### Operations in a row -/

/-- What can be asked of the outputs: an operation of the bank, or one of the two that the sequencer
    carries out on all pins of its map. -/
inductive OutputOp where
  /-- An operation of the bank, with pins and levels of its own. -/
  | bank (op : BankOp)
  /-- All pins of the map are set up. -/
  | configureOutputs
  /-- The sequencer shuts down. -/
  | shutDown

namespace OutputOp

/-- What is done for an operation; its answer does not matter. -/
def activity (map : ChannelMap) : OutputOp → Activity Unit
  | .bank op => .ask (.bank op) fun _ => .done ()
  | .configureOutputs => do
    let _ ← Activity.configureAll map.pins
    pure ()
  | .shutDown => do
    let _ ← Activity.shutDown map.pins
    pure ()

/-- Whether an operation seals the outputs. -/
def isSealing : OutputOp → Bool
  | .bank op => (Action.bank op).isSealing
  | .configureOutputs => false
  | .shutDown => true

/-- The pins that an operation sets up. -/
def setsUp (map : ChannelMap) : OutputOp → List Pin
  | .bank (.configureAll pins) => pins
  | .configureOutputs => map.pins
  | _ => []

/-- Carries operations out in order. -/
def performAll {σ : Type} [PinDriver σ] (map : ChannelMap) (ops : List OutputOp) (w : World σ) :
    World σ :=
  ops.foldl (fun w op => (w.run (op.activity map)).2) w

variable {σ : Type} [PinDriver σ]

theorem isSealed_of_sealing (map : ChannelMap) {op : OutputOp} (hop : op.isSealing = true)
    (w : World σ) :
    (w.run (op.activity map)).2.isSealed = true := by
  cases op with
  | configureOutputs => cases hop
  | bank op =>
    show (w.act (.bank op)).2.isSealed = true
    have hsealing : (Action.bank op).isSealing = true := hop
    rw [World.isSealed_act, hsealing, Bool.or_true]
  | shutDown =>
    let woken := ((w.act .close).2.act .wake).2
    have hsealed : (woken.act (.bank (.seal map.pins))).2.isSealed = true := by
      rw [World.isSealed_act]
      exact Bool.or_true _
    -- what comes after the sealing does not take it back
    show (World.run _ (woken.act (.bank (.seal map.pins))).2).2.isSealed = true
    exact World.isSealed_run _ hsealed

/-- On sealed outputs, an operation makes the calls of setting up its pins and no others. -/
theorem setUp_of_sealed (map : ChannelMap) (op : OutputOp) {w : World σ} (hw : w.isSealed = true) :
    ∃ attempts, (w.run (op.activity map)).2.calls = w.calls ++ attempts ∧
      SetUp (op.setsUp map) attempts := by
  have hquiet {d : Activity Unit} (hd : d.Follows (.avoiding Action.isSettingUp) fun _ => True) :
      ∃ attempts, (w.run d).2.calls = w.calls ++ attempts ∧ SetUp [] attempts :=
    ⟨[], by rw [World.calls_run_of_sealed hd hw, List.append_nil], .nothing⟩
  cases op with
  | bank op =>
    match op with
    | .configureAll pins => exact World.setUp_act_configureAll pins w
    | .set pin level => exact hquiet ⟨rfl, fun _ _ => trivial⟩
    | .allOff pins => exact hquiet ⟨rfl, fun _ _ => trivial⟩
    | .seal pins => exact hquiet ⟨rfl, fun _ _ => trivial⟩
  | configureOutputs => exact World.setUp_act_configureAll map.pins w
  | shutDown =>
    have hlenient : (Conduct.avoiding Action.isSettingUp).Lenient :=
      Conduct.lenient_avoiding fun _ => Action.isSettingUp_of_isPassing
    exact hquiet ((Activity.follows_shutDown hlenient rfl rfl).bind fun _ _ => trivial)

/-- Operations on sealed outputs: the seal stays, and each operation makes the calls of setting up
    its pins and no others. -/
theorem setUp_performAll (map : ChannelMap) (ops : List OutputOp) {w : World σ}
    (hw : w.isSealed = true) :
    (performAll map ops w).isSealed = true ∧ ∃ made : List (List Attempt),
      (performAll map ops w).calls = w.calls ++ made.flatten ∧
        List.Forall₂ (fun op attempts => SetUp (op.setsUp map) attempts) ops made := by
  induction ops generalizing w with
  | nil => exact ⟨hw, [], (List.append_nil _).symm, .nil⟩
  | cons op rest ih =>
    obtain ⟨attempts, hattempts, hop⟩ := setUp_of_sealed map op hw
    obtain ⟨hsealed, made, hmade, hrest⟩ := ih (World.isSealed_run (op.activity map) hw)
    refine ⟨hsealed, attempts :: made, ?_, .cons hop hrest⟩
    show (performAll map rest _).calls = _
    rw [hmade, hattempts, List.append_assoc]
    rfl

/-- **What reaches the driver through sealed outputs.** Once the outputs have been sealed they stay
    so. From then on an operation makes no call at all, unless it sets pins up: then it makes the
    calls of setting up, as if nothing had been sealed, but none that switches a pin on. -/
theorem calls_after_seal (map : ChannelMap) (driver : σ) (before : List OutputOp)
    {sealing : OutputOp} (hsealing : sealing.isSealing = true) (later : List OutputOp) :
    let shut := performAll map (before ++ [sealing]) (World.start driver)
    let w := performAll map (before ++ sealing :: later) (World.start driver)
    shut.isSealed = true ∧ w.isSealed = true ∧ ∃ made : List (List Attempt),
      w.calls = shut.calls ++ made.flatten ∧
      List.Forall₂ (fun op attempts => SetUp (op.setsUp map) attempts ∧
        (attempts = [] ↔ op.setsUp map = []) ∧
        ∀ pin fault, (.set pin .high, fault) ∉ attempts) later made := by
  intro shut w
  have hshut : shut.isSealed = true := by
    show (performAll map (before ++ [sealing]) _).isSealed = true
    rw [performAll, List.foldl_append]
    exact isSealed_of_sealing map hsealing _
  -- what was done up to the sealing counts through the seal only
  have hw : w = performAll map later shut := by
    show performAll map (before ++ sealing :: later) _ = _
    rw [List.append_cons, performAll, List.foldl_append]
    rfl
  obtain ⟨hsealed, made, hcalls, hmade⟩ := setUp_performAll map later hshut
  refine ⟨hshut, hw ▸ hsealed, made, hw ▸ hcalls, hmade.imp fun op attempts hop => ?_⟩
  exact ⟨hop, hop.eq_nil_iff, hop.set_high_notMem⟩

/-- A pin is set up and switched on, and the sequencer shuts down. Sealing once more and switching
    on reach nobody after that, and setting another pin up does. -/
theorem calls_after_seal_relit :
    let before : List OutputOp := [.configureOutputs, .bank (.set ⟨1⟩ .high)]
    let later : List OutputOp :=
      [.bank (.seal []), .bank (.set ⟨1⟩ .high), .bank (.configureAll [⟨2⟩])]
    let start := World.start Hardware.nothing
    let shut := performAll Ensemble.single (before ++ [.shutDown]) start
    let w := performAll Ensemble.single (before ++ .shutDown :: later) start
    OutputOp.isSealing .shutDown = true ∧ shut.isSealed = true ∧ w.isSealed = true ∧
      ∃ attempts, w.calls = shut.calls ++ attempts ∧ SetUp [⟨2⟩] attempts := by
  intro before later start shut w
  have hsealing : OutputOp.isSealing .shutDown = true := rfl
  obtain ⟨hshut, hw, made, hcalls, hmade⟩ :=
    calls_after_seal Ensemble.single Hardware.nothing before hsealing later
  change List.Forall₂ _ [_, _, _] made at hmade
  obtain _ | ⟨⟨_, hseal, _⟩, _ | ⟨⟨_, hset, _⟩, _ | ⟨⟨hup, _⟩, _ | _⟩⟩⟩ := hmade
  rw [hseal.2 rfl, hset.2 rfl] at hcalls
  simp only [List.flatten_cons, List.flatten_nil, List.nil_append, List.append_nil] at hcalls
  exact ⟨hsealing, hshut, hw, _, hcalls, hup⟩

/-- The outputs have been sealed by a shutdown, and setting them up calls the driver twice more. -/
theorem configured_after_shutDown :
    let start := World.start Hardware.nothing
    let shut := performAll Ensemble.single [.shutDown] start
    let w := performAll Ensemble.single [.shutDown, .configureOutputs] start
    shut.isSealed = true ∧ shut.calls = [(.set ⟨1⟩ .low, none)] ∧
      w.calls = shut.calls ++ [(.configure ⟨1⟩, none), (.set ⟨1⟩ .low, none)] := by
  decide +kernel

end OutputOp

end LedSequencer
