import LedSequencer.Proofs.Shutdown

/-! # Levels of pins

  As long as nobody shuts the sequencer down and the driver never fails, the log tells
  the level of every pin: it is the one that the last action on that pin asked for.
-/

namespace LedSequencer

/-! ### Calls without faults -/

namespace Attempt

theorem lastWrite?_of_notMem {pin : Pin} {pins : List Pin} (hpin : pin ∉ pins) :
    lastWrite? pin ((pins.map fun p => Call.set p .low).map fun call => (call, none)) = none := by
  have hnone : (((pins.map fun p => Call.set p .low).map fun call =>
      ((call, none) : Attempt))).filterMap (writeTo? pin) = [] := by
    rw [List.filterMap_eq_nil_iff]
    intro a ha
    obtain ⟨call, hcall, rfl⟩ := List.mem_map.1 ha
    obtain ⟨p, hp, rfl⟩ := List.mem_map.1 hcall
    have hne : p ≠ pin := fun heq => hpin (heq ▸ hp)
    exact if_neg hne
  rw [lastWrite?, hnone]
  rfl

end Attempt

/-! ### What the log tells of a pin -/

/-- The level that an action tells a pin to take. -/
def Action.drive? (pin : Pin) : Action → Option Level
  | .bank (.set p level) => if p = pin then some level else none
  | .bank (.allOff pins) => if pin ∈ pins then some .low else none
  | _ => none

/-- The level that an entry of the log tells a pin to take. -/
def Entry.drive? {ι : Type} (pin : Pin) : Entry ι → Option Level
  | .did _ action _ => action.drive? pin
  | _ => none

/-- An entry tells a pin its level by driving it, or by switching pins off. -/
theorem Entry.eq_of_drive? {ι : Type} {pin : Pin} {level : Level} {entry : Entry ι}
    (h : entry.drive? pin = some level) :
    (∃ who reply, entry = .did who (.bank (.set pin level)) reply) ∨
      level = .low ∧ ∃ who pins reply, entry = .did who (.bank (.allOff pins)) reply := by
  cases entry with
  | began who order => cases h
  | ended who outcome => cases h
  | did who action reply =>
    cases action with
    | bank op =>
      match op with
      | .set p told =>
        have hset : (if p = pin then some told else none) = some level := h
        split at hset
        · next hp =>
          cases hset
          subst hp
          exact .inl ⟨who, reply, rfl⟩
        · cases hset
      | .allOff pins =>
        have hoff : (if pin ∈ pins then some Level.low else none) = some level := h
        split at hoff
        · cases hoff
          exact .inr ⟨rfl, who, pins, reply, rfl⟩
        · cases hoff
      | .configureAll pins | .seal pins => cases h
    | load | publish | wake | await | isClosing | close | sleep | yield | report => cases h

/-- Only driving a pin tells it to be high. -/
theorem Entry.eq_of_drive?_high {ι : Type} {pin : Pin} {entry : Entry ι}
    (h : entry.drive? pin = some .high) :
    ∃ who reply, entry = .did who (.bank (.set pin .high)) reply := by
  rcases eq_of_drive? h with hdriven | ⟨hlow, _⟩
  · exact hdriven
  · cases hlow

/-- The last value that is found in a list is found somewhere, and nowhere after that. -/
theorem exists_last_of_getLast?_filterMap {α β : Type} {f : α → Option β} {l : List α} {b : β}
    (h : (l.filterMap f).getLast? = some b) :
    ∃ l₁ a l₂, l = l₁ ++ a :: l₂ ∧ f a = some b ∧ ∀ x ∈ l₂, f x = none := by
  obtain ⟨init, hinit⟩ := List.getLast?_eq_some_iff.1 h
  obtain ⟨l₁, l', rfl, _, hlast⟩ := List.filterMap_eq_append_iff.1 hinit
  obtain ⟨l₂, a, l₃, rfl, _, ha, hnil⟩ := List.filterMap_eq_cons_iff.1 hlast
  refine ⟨l₁ ++ l₂, a, l₃, by rw [List.append_assoc], ha, fun x hx => ?_⟩
  exact List.filterMap_eq_nil_iff.1 hnil x hx

/-- While the outputs are not sealed, calls without faults write what an action says. -/
theorem Action.lastWrite?_calls {a : Action} (ha : a.isSealing = false) {pin : Pin}
    {attempts : List Attempt} (hcalls : attempts.map Prod.fst = a.calls false)
    (hfaults : ∀ attempt ∈ attempts, attempt.2 = none) :
    Attempt.lastWrite? pin attempts = (a.drive? pin).map fun level => (level, none) := by
  have hattempts := Attempt.eq_map_of_faultless hfaults
  cases a with
  | bank op =>
    match op with
    | .configureAll pins =>
      have hnil : attempts = [] := List.map_eq_nil_iff.1 hcalls
      rw [hnil]
      rfl
    | .set p level =>
      rw [hcalls] at hattempts
      rw [hattempts]
      by_cases hp : p = pin
      · simp [Attempt.lastWrite?, Attempt.writeTo?, Action.calls, Action.drive?, hp]
      · simp [Attempt.lastWrite?, Attempt.writeTo?, Action.calls, Action.drive?, hp]
    | .allOff pins =>
      by_cases hpin : pin ∈ pins
      · rw [Attempt.lastWrite?_of_lowered hcalls hfaults hpin]
        simp [Action.drive?, hpin]
      · rw [hattempts, hcalls]
        have hnone := Attempt.lastWrite?_of_notMem hpin
        simp only [Action.drive?, if_neg hpin, Option.map_none]
        exact hnone
    | .seal pins => cases ha
  | load | publish | wake | await | isClosing | close | sleep | yield | report =>
    have hnil : attempts = [] := List.map_eq_nil_iff.1 hcalls
    rw [hnil]
    rfl

namespace Ensemble

variable {ι σ : Type}

/-- Nobody shuts the sequencer down. -/
structure IsOpen (e : Ensemble ι σ) : Prop where
  /-- The outputs are not sealed. -/
  isSealed_eq : e.world.isSealed = false
  /-- Nobody is there to seal them. -/
  ne_closer : ∀ i, e.parties i ≠ .closer
  /-- Nobody is about to seal them. -/
  isAside : ∀ i rest, e.parties i = .busy rest → IsAside rest

variable [DecidableEq ι] {map : ChannelMap} {e e' : Ensemble ι σ} {who : ι} {entry : Entry ι}

theorem IsOpen.record (h : e.IsOpen) {world : World σ} {party : Party}
    (hsealed : world.isSealed = false) (hcloser : party ≠ .closer)
    (haside : ∀ rest, party = .busy rest → IsAside rest) :
    (e.record world who party entry).IsOpen := by
  refine ⟨hsealed, ?_, ?_⟩
  · apply (forall_parties_record_iff (P := fun _ p => p ≠ .closer)).2
    exact ⟨hcloser, fun i _ => h.ne_closer i⟩
  · apply (forall_parties_record_iff (P := fun _ p => ∀ rest, p = .busy rest → IsAside rest)).2
    exact ⟨haside, fun i _ => h.isAside i⟩

variable [PinDriver σ]

theorem Happens.isOpen (hstep : Happens map e who entry e') (h : e.IsOpen) : e'.IsOpen := by
  cases hstep with
  | began order activity horder =>
    apply h.record h.isSealed_eq
    · intro hparty
      cases hparty
    · intro rest hrest
      cases hrest
      exact Order.isAside horder (h.ne_closer who)
  | did action next hbusy =>
    obtain ⟨hallows, hnext⟩ := h.isAside who _ hbusy
    apply h.record
    · rw [World.isSealed_act, h.isSealed_eq, Bool.false_or]
      exact hallows
    · intro hparty
      cases hparty
    · intro rest hrest
      cases hrest
      exact hnext _ trivial
  | ended outcome hbusy =>
    have haside : ∀ isFirst, outcome ≠ .closed isFirst := h.isAside who _ hbusy
    apply h.record h.isSealed_eq
    · cases outcome with
      | closed isFirst => exact absurd rfl (haside isFirst)
      | stepped | handled | installed | entered => exact Party.noConfusion
    · intro rest hrest
      cases outcome <;> cases hrest

/-- The log tells the level of every pin. -/
structure Tells (e : Ensemble ι σ) : Prop where
  isReliable : IsReliable e.world.driver
  lastWrite?_eq : ∀ pin, Attempt.lastWrite? pin e.world.calls =
    (e.log.filterMap (Entry.drive? pin)).getLast?.map fun level => (level, none)

/-- An entry that tells no pin its level changes nothing. -/
theorem Tells.record (h : e.Tells) {party : Party} (hentry : ∀ pin, entry.drive? pin = none) :
    (e.record e.world who party entry).Tells := by
  refine ⟨h.isReliable, ?_⟩
  intro pin
  rw [log_record, List.filterMap_append, List.filterMap_cons_none (hentry pin),
    List.filterMap_nil, List.append_nil]
  exact h.lastWrite?_eq pin

theorem Happens.tells (hstep : Happens map e who entry e') (hopen : e.IsOpen)
    (hmapped : e.IsMapped map) (h : e.Tells) : e'.Tells := by
  cases hstep with
  | began order activity horder => exact h.record fun _ => rfl
  | ended outcome hbusy => exact h.record fun _ => rfl
  | did a next hbusy =>
    have hsealing : a.isSealing = false := (hopen.isAside who _ hbusy).1
    have hup : a.isSettingUp = false := isSettingUp_of_mapped (hmapped.follows hbusy).1
    obtain ⟨attempts, hcalls, hattempts, hdriver⟩ := World.called_act hup e.world
    obtain ⟨hfaults, hreliable⟩ := hdriver h.isReliable
    rw [hopen.isSealed_eq] at hattempts
    refine ⟨hreliable, ?_⟩
    intro pin
    -- the last write of this action, if it has one, is the last one of all
    rw [world_record, hcalls, Attempt.lastWrite?_append,
      Action.lastWrite?_calls hsealing hattempts hfaults, h.lastWrite?_eq pin, log_record,
      List.filterMap_append, List.getLast?_append]
    cases hdrive : a.drive? pin with
    | none => simp [Entry.drive?, hdrive]
    | some level => simp [Entry.drive?, hdrive]

/-- In a sequencer that nobody shuts down, with a driver that never fails, every pin has the level
    that the last action on it asked for. -/
theorem lastWrite?_sequencer {driver : σ} (hdriver : IsReliable driver) {cast : ι → Role}
    (hcast : ∀ i, cast i ≠ .closer) (schedule : List (ι × Move)) (pin : Pin) :
    let e := (sequencer map driver cast).play map schedule
    Attempt.lastWrite? pin e.world.calls =
      (e.log.filterMap (Entry.drive? pin)).getLast?.map fun level => (level, none) := by
  intro e
  have hopen : (sequencer map driver cast).IsOpen := by
    refine ⟨rfl, ?_, ?_⟩
    · intro i hi
      have hne := hcast i
      have hparty : (cast i).party map = .closer := hi
      cases hrole : cast i with
      | closer => exact hne hrole
      | player | session | newcomer =>
        rw [hrole] at hparty
        cases hparty
    · intro i rest hbusy
      have hparty : (cast i).party map = .busy rest := hbusy
      cases hrole : cast i <;>
      · rw [hrole] at hparty
        cases hparty
  suffices hplay : e.IsOpen ∧ e.IsMapped map ∧ e.Tells from hplay.2.2.lastWrite?_eq pin
  refine play_induction (P := fun e => e.IsOpen ∧ e.IsMapped map ∧ e.Tells) ?_
    ⟨hopen, isMapped_sequencer map driver cast, hdriver, fun pin => rfl⟩ schedule
  rintro e₁ who entry e₂ ⟨hopen, hmapped, htells⟩ hstep
  exact ⟨hstep.isOpen hopen, hstep.isMapped hmapped, hstep.tells hopen hmapped htells⟩

end Ensemble

end LedSequencer
