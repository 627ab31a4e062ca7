import LedSequencer.Output.PinFiles
import LedSequencer.Playback.World

/-! # What actions do to the outputs

  The calls that a driver was given are the part of a trace that the theorems speak
  about. For each action this module says which calls it makes and what it does to the
  seal and to the active sequence; nothing below it looks into `World.act` again.
-/

namespace LedSequencer

/-! ### Calls and levels -/

/-- A call with the fault it was answered by. -/
abbrev Attempt := Call × Option Fault

namespace Attempt

/-- The level that a call wrote, or tried to write, to a pin. -/
def writeTo? (pin : Pin) : Attempt → Option (Level × Option Fault)
  | (.set p level, fault) => if p = pin then some (level, fault) else none
  | (.configure _, _) => none

/-- The last write to a pin among calls. -/
def lastWrite? (pin : Pin) (attempts : List Attempt) : Option (Level × Option Fault) :=
  (attempts.filterMap (writeTo? pin)).getLast?

/-- The last write is among the later calls, if they hold one. -/
theorem lastWrite?_append (pin : Pin) (earlier later : List Attempt) :
    lastWrite? pin (earlier ++ later) = (lastWrite? pin later).or (lastWrite? pin earlier) := by
  unfold lastWrite?
  rw [List.filterMap_append, List.getLast?_append]

/-- Calls without faults are known from the calls alone. -/
theorem eq_map_of_faultless {attempts : List Attempt} (h : ∀ a ∈ attempts, a.2 = none) :
    attempts = (attempts.map Prod.fst).map fun call => (call, none) := by
  induction attempts with
  | nil => rfl
  | cons a rest ih =>
    have ha := h a List.mem_cons_self
    have hrest := ih fun b hb => h b (List.mem_cons_of_mem a hb)
    rw [List.map_cons, List.map_cons, ← hrest, ← ha]

/-- Calls that switch pins off without a fault leave each of these pins low. -/
theorem lastWrite?_of_lowered {pins : List Pin} {attempts : List Attempt}
    (hcalls : attempts.map Prod.fst = pins.map fun pin => .set pin .low)
    (hfaults : ∀ a ∈ attempts, a.2 = none) {pin : Pin} (hpin : pin ∈ pins) :
    lastWrite? pin attempts = some (.low, none) := by
  -- every write to the pin is low, and there is one
  have hwrites : ∀ w ∈ attempts.filterMap (writeTo? pin), w = (.low, none) := by
    intro w hw
    obtain ⟨a, ha, hwrite⟩ := List.mem_filterMap.1 hw
    have hfault := hfaults a ha
    have hcall : a.1 ∈ pins.map fun pin => Call.set pin .low :=
      hcalls ▸ List.mem_map_of_mem ha
    obtain ⟨p, _, hp⟩ := List.mem_map.1 hcall
    obtain ⟨call, fault⟩ := a
    simp only at hfault hp
    subst hfault
    subst hp
    simp only [writeTo?] at hwrite
    split at hwrite <;> simp_all
  have hmem : (Level.low, (none : Option Fault)) ∈ attempts.filterMap (writeTo? pin) := by
    have hcall : Call.set pin .low ∈ attempts.map Prod.fst := by
      rw [hcalls]
      exact List.mem_map_of_mem hpin
    obtain ⟨a, ha, hfst⟩ := List.mem_map.1 hcall
    refine List.mem_filterMap.2 ⟨a, ha, ?_⟩
    have hfault := hfaults a ha
    obtain ⟨call, fault⟩ := a
    simp only at hfst hfault
    subst hfst
    subst hfault
    simp [writeTo?]
  unfold lastWrite?
  cases hlast : (attempts.filterMap (writeTo? pin)).getLast? with
  | none =>
    rw [List.getLast?_eq_none_iff] at hlast
    rw [hlast] at hmem
    cases hmem
  | some w => rw [hwrites w (List.mem_of_getLast? hlast)]

end Attempt

/-- A driver that never fails: it has a property that rules faults out and that no call takes from
    it. -/
def IsReliable {σ : Type} [PinDriver σ] (driver : σ) : Prop :=
  ∃ holds : σ → Prop, holds driver ∧ ∀ d c, holds d →
    (PinDriver.respond c d).fault = none ∧ holds (PinDriver.respond c d).driver

theorem IsReliable.respond {σ : Type} [PinDriver σ] {driver : σ} (h : IsReliable driver)
    (c : Call) : (PinDriver.respond c driver).fault = none ∧
      IsReliable (PinDriver.respond c driver).driver := by
  obtain ⟨holds, hdriver, hkeeps⟩ := h
  obtain ⟨hfault, hdriver'⟩ := hkeeps driver c hdriver
  exact ⟨hfault, holds, hdriver', hkeeps⟩

/-- A driver that does nothing never fails. -/
theorem isReliable_nothing : IsReliable Hardware.nothing := by
  refine ⟨fun driver => driver = .nothing, rfl, ?_⟩
  rintro d c rfl
  exact ⟨rfl, rfl⟩

/-- The calls that an action makes on outputs that are sealed or not, setting up apart. -/
def Action.calls (isSealed : Bool) : Action → List Call
  | .bank (.set pin level) => if isSealed then [] else [.set pin level]
  | .bank (.allOff pins) => if isSealed then [] else pins.map fun pin => .set pin .low
  | .bank (.seal pins) => if isSealed then [] else pins.map fun pin => .set pin .low
  | _ => []

/-- Sealed outputs are left alone. -/
theorem Action.calls_of_isSealed (a : Action) : a.calls true = [] := by
  cases a with
  | bank op =>
    match op with
    | .configureAll pins | .set pin level | .allOff pins | .seal pins => rfl
  | load | publish | wake | await | isClosing | close | sleep | yield | report => rfl

/-- Whether an action sets pins up. -/
def Action.isSettingUp : Action → Bool
  | .bank (.configureAll _) => true
  | _ => false

/-- Whether an action seals the outputs. -/
def Action.isSealing : Action → Bool
  | .bank (.seal _) => true
  | _ => false

namespace World

variable {σ : Type}

/-- The calls that the driver was given, in order. -/
def calls (w : World σ) : List Attempt := w.trace.toList.filterMap Mark.call?

theorem calls_mark {m : Mark} (h : m.call? = none) (w : World σ) : (w.mark m).calls = w.calls := by
  simp [calls, mark, h]

/-- Reports are added to a trace in order. -/
theorem toList_foldl_reported (events : List Event) (trace : Array Mark) :
    (events.foldl (fun t event => t.push (.reported event)) trace).toList =
      trace.toList ++ events.map .reported := by
  rw [List.foldl_push_eq_append, Array.toList_append]

/-- Reports leave every view of the trace as it is that takes no reports up. -/
theorem filterMap_foldl_reported {β : Type} (view : Mark → Option β)
    (hview : ∀ event, view (.reported event) = none) (events : List Event) (trace : Array Mark) :
    (events.foldl (fun t event => t.push (.reported event)) trace).toList.filterMap view =
      trace.toList.filterMap view := by
  have hnothing : (events.map Mark.reported).filterMap view = [] := by
    simp [List.filterMap_map, hview]
  rw [toList_foldl_reported, List.filterMap_append, hnothing, List.append_nil]

variable [PinDriver σ]

/-! ### Requests -/

theorem calls_request_call (c : Call) (w : World σ) :
    (request (.call c) w).2.calls = w.calls ++ [(c, (request (.call c) w).1)] := by
  simp only [request, calls, Array.toList_push, List.filterMap_append,
    filterMap_foldl_reported Mark.call? fun _ => rfl]
  rfl

theorem calls_request_report (event : Event) (w : World σ) :
    (request (.report event) w).2.calls = w.calls := calls_mark rfl w

/-- A request leaves everything but the driver and the trace as it is. -/
theorem request_frame (r : Request) (w : World σ) :
    (request r w).2.active = w.active ∧ (request r w).2.closing = w.closing := by
  cases r with
  | call c => exact ⟨rfl, rfl⟩
  | report event => exact ⟨rfl, rfl⟩

theorem run_request_frame {α : Type} (d : Wiring α) (w : World σ) :
    (d.run request w).2.active = w.active ∧ (d.run request w).2.closing = w.closing := by
  induction d generalizing w with
  | done a => exact ⟨rfl, rfl⟩
  | ask r next ih =>
    rw [Dialogue.run_ask]
    obtain ⟨hactive, hclosing⟩ := ih (request r w).1 (request r w).2
    obtain ⟨hactive', hclosing'⟩ := request_frame r w
    exact ⟨hactive.trans hactive', hclosing.trans hclosing'⟩

/-- Between two states the driver was given these calls. A driver that never fails answers them
    without a fault and goes on like that. -/
def Called (w w' : World σ) (cs : List Call) : Prop :=
  ∃ attempts : List Attempt, w'.calls = w.calls ++ attempts ∧ attempts.map Prod.fst = cs ∧
    (IsReliable w.driver → (∀ a ∈ attempts, a.2 = none) ∧ IsReliable w'.driver)

theorem Called.nothing {w w' : World σ} (hcalls : w'.calls = w.calls)
    (hdriver : w'.driver = w.driver) : Called w w' [] :=
  ⟨[], by simp [hcalls], rfl, by simp [hdriver]⟩

theorem Called.trans {w w' w'' : World σ} {cs more : List Call} (h : Called w w' cs)
    (h' : Called w' w'' more) : Called w w'' (cs ++ more) := by
  obtain ⟨attempts, hcalls, hmap, hreliable⟩ := h
  obtain ⟨attempts', hcalls', hmap', hreliable'⟩ := h'
  refine ⟨attempts ++ attempts', ?_, by rw [List.map_append, hmap, hmap'], ?_⟩
  · rw [hcalls', hcalls, List.append_assoc]
  · intro hdriver
    obtain ⟨hnone, hdriver'⟩ := hreliable hdriver
    obtain ⟨hnone', hdriver''⟩ := hreliable' hdriver'
    refine ⟨?_, hdriver''⟩
    intro a ha
    rcases List.mem_append.1 ha with ha | ha
    · exact hnone a ha
    · exact hnone' a ha

theorem Called.map_fst {w w' : World σ} {cs : List Call} (h : Called w w' cs) :
    w'.calls.map Prod.fst = w.calls.map Prod.fst ++ cs := by
  obtain ⟨attempts, hcalls, hmap, _⟩ := h
  rw [hcalls, List.map_append, hmap]

/-- With a driver that never fails the calls are answered without a fault. -/
theorem Called.of_isReliable {w w' : World σ} {cs : List Call} (h : Called w w' cs)
    (hw : IsReliable w.driver) :
    IsReliable w'.driver ∧ w'.calls = w.calls ++ cs.map fun call => (call, none) := by
  obtain ⟨attempts, hcalls, hmap, hdriver⟩ := h
  obtain ⟨hfaults, hreliable⟩ := hdriver hw
  refine ⟨hreliable, ?_⟩
  rw [hcalls, Attempt.eq_map_of_faultless hfaults, hmap]

theorem called_request_call (c : Call) (w : World σ) : Called w (request (.call c) w).2 [c] := by
  refine ⟨_, calls_request_call c w, rfl, ?_⟩
  intro hdriver
  obtain ⟨hfault, hdriver'⟩ := hdriver.respond c
  refine ⟨?_, hdriver'⟩
  intro a ha
  rw [List.mem_singleton] at ha
  rw [ha]
  exact hfault

/-- Switching pins off makes one call for each of them in order, whatever the driver answers. -/
theorem called_run_lower (pins : List Pin) (w : World σ) :
    Called w ((Wiring.lower pins).run request w).2 (pins.map fun pin => .set pin .low) := by
  induction pins generalizing w with
  | nil => exact .nothing rfl rfl
  | cons pin rest ih =>
    have hcall := called_request_call (.set pin .low) w
    suffices hrest : Called (request (.call (.set pin .low)) w).2
        ((Wiring.lower (pin :: rest)).run request w).2 (rest.map fun pin => .set pin .low) from
      hcall.trans hrest
    cases hfault : (request (.call (.set pin .low)) w).1 with
    | none =>
      have hrun : (Wiring.lower (pin :: rest)).run request w =
          (Wiring.lower rest).run request (request (.call (.set pin .low)) w).2 := by
        simp only [Wiring.lower, Wiring.call, Dialogue.bind_ask, Dialogue.run_ask,
          Dialogue.bind_done, hfault]
        rfl
      rw [hrun]
      exact ih _
    | some fault =>
      -- the fault is reported before the next pin
      let event : Event := .switchOffFailed { pin, fault }
      let reported := (request (.report event) (request (.call (.set pin .low)) w).2).2
      have hrun : (Wiring.lower (pin :: rest)).run request w =
          (Wiring.lower rest).run request reported := by
        simp only [Wiring.lower, Wiring.call, Dialogue.bind_ask, Dialogue.run_ask,
          Dialogue.bind_done, hfault]
        rfl
      rw [hrun]
      exact (Called.nothing (calls_request_report event _) rfl).trans (ih reported)

/-! ### Actions -/

/-- Only a publication changes the active sequence. -/
theorem active_act (a : Action) (w : World σ) :
    (w.act a).2.active =
      match a with
      | .publish s => w.active.next s
      | _ => w.active := by
  cases a with
  | bank op => exact (run_request_frame _ w).1
  | load | publish | wake | await | isClosing | close | sleep | yield | report => rfl

/-- The outputs are sealed by sealing, and stay sealed. -/
theorem isSealed_act (a : Action) (w : World σ) :
    (w.act a).2.isSealed = (w.isSealed || a.isSealing) := by
  cases a with
  | bank op =>
    match op with
    | .configureAll pins => simp [act, bank, BankOp.wiring, Action.isSealing]
    | .set pin level | .allOff pins | .seal pins =>
      cases hs : w.isSealed <;> simp [act, bank, BankOp.wiring, Action.isSealing, hs]
  | load | publish | wake | await | isClosing | close | sleep | yield | report =>
    simp [act, mark, publish, Action.isSealing]

/-- Sealing answers whether the outputs were not sealed before. -/
theorem reply_seal (pins : List Pin) (w : World σ) :
    (w.act (.bank (.seal pins))).1 = !w.isSealed := by
  cases hs : w.isSealed <;> simp [act, bank, BankOp.wiring, hs]

/-- What an action other than setting up calls depends on the seal alone. -/
theorem called_act {a : Action} (ha : a.isSettingUp = false) (w : World σ) :
    Called w (w.act a).2 (a.calls w.isSealed) := by
  cases a with
  | bank op =>
    match op with
    | .configureAll pins => cases ha
    | .set pin level =>
      cases hs : w.isSealed with
      | true =>
        simp only [act, bank, hs, BankOp.wiring]
        exact .nothing rfl rfl
      | false =>
        simp only [act, bank, hs, BankOp.wiring]
        exact called_request_call (.set pin level) w
    | .allOff pins | .seal pins =>
      cases hs : w.isSealed with
      | true =>
        simp only [act, bank, hs, BankOp.wiring]
        exact .nothing rfl rfl
      | false =>
        simp only [act, bank, hs, BankOp.wiring, Dialogue.run_bind]
        exact called_run_lower pins w
  | sleep length => exact .nothing (calls_mark rfl w) rfl
  | yield => exact .nothing (calls_mark rfl w) rfl
  | report event => exact .nothing (calls_mark rfl w) rfl
  | load | publish | wake | await | isClosing | close => exact .nothing rfl rfl

end World

end LedSequencer
