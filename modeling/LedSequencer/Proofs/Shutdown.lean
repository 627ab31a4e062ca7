import LedSequencer.Output.PinFiles
import LedSequencer.Proofs.AcceptedMap
import LedSequencer.Proofs.MappedPins

/-! # The shutdown

  Any number of parties can shut the sequencer down while players play and sessions
  handle lines. Exactly one of them seals the outputs, whichever comes first, and from
  then on the driver is left alone, with every pin low.

  * **Standing**: where a party stands with respect to the seal.
  * **Progress**: an invariant that counts shutdowns that took effect and answers that
    say so. The party that has sealed and not yet answered makes up for the difference.
  * **Outputs**: an invariant on the calls that the driver was given.
-/

namespace LedSequencer

/-! ### Standing -/

/-- The conduct of everyone who does not seal the outputs. -/
def unsealing : Conduct Action Action.Reply where
  allows a := a.isSealing = false
  expects _ _ := True

theorem unsealing_lenient : unsealing.Lenient := by
  intro a ha
  cases a with
  | wake | sleep | yield | report => rfl
  | load | publish | await | isClosing | close | bank => cases ha

/-- What is left of a shutdown once the seal has told whether it is the first. -/
def IsTold (isFirst : Bool) (rest : Activity Outcome) : Prop :=
  rest.Follows unsealing fun outcome => outcome = .closed isFirst

/-- What is left of a shutdown that has yet to seal the outputs. -/
def IsAwaiting (pins : List Pin) (rest : Activity Outcome) : Prop :=
  rest.ComesTo unsealing (.bank (.seal pins)) IsTold

/-- What is left of any other activity. -/
def IsAside (rest : Activity Outcome) : Prop :=
  rest.Follows unsealing fun outcome => ∀ isFirst, outcome ≠ .closed isFirst

theorem isAside_ofStep (p : Player) : IsAside (.ofStep p) := by
  refine (Player.follows_step unsealing_lenient rfl ?_).bind ?_
  · intro active _ pin level _
    rfl
  · intro stepped _ isFirst h
    cases h

theorem isAside_ofLine (s : Session) (text : String) : IsAside (.ofLine s text) := by
  refine (Session.follows_handleLine unsealing_lenient rfl ?_).bind ?_
  · intro compiled _
    rfl
  · intro handled _ isFirst h
    cases h

theorem isAside_ofInstall (s : Sequence) : IsAside (.ofInstall s) := by
  refine (Activity.follows_install unsealing_lenient rfl).bind ?_
  intro _ _ isFirst h
  cases h

theorem isAside_ofEnter : IsAside .ofEnter := by
  refine ⟨rfl, ?_⟩
  intro active _ isFirst h
  cases h

theorem isAwaiting_ofShutDown (pins : List Pin) : IsAwaiting pins (.ofShutDown pins) := by
  refine .later Action.close _ rfl fun _ _ => .later Action.wake _ rfl fun _ _ => ?_
  refine .now _ fun isFirst => ?_
  cases isFirst with
  | false => exact rfl
  | true => exact ⟨rfl, fun _ _ => rfl⟩

/-- Nobody but a closer begins anything that seals. -/
theorem Order.isAside {map : ChannelMap} {order : Order} {party : Party}
    {activity : Activity Outcome} (horder : order.activity map party = some activity)
    (hparty : party ≠ .closer) : IsAside activity := by
  cases order with
  | step =>
    cases party <;> cases horder
    exact isAside_ofStep _
  | line text =>
    cases party <;> cases horder
    exact isAside_ofLine _ text
  | install sequence =>
    cases party <;> cases horder
    exact isAside_ofInstall sequence
  | shutDown =>
    cases party <;> cases horder
    exact absurd rfl hparty
  | enter =>
    cases party <;> cases horder
    exact isAside_ofEnter

/-- Whatever a party begins, it seals in a shutdown only, and there it is certain to. -/
theorem Order.isAside_or_isAwaiting {map : ChannelMap} {order : Order} {party : Party}
    {activity : Activity Outcome} (horder : order.activity map party = some activity) :
    IsAside activity ∨ IsAwaiting map.pins activity := by
  by_cases hparty : party = .closer
  · subst hparty
    cases order <;> cases horder
    exact .inr (isAwaiting_ofShutDown map.pins)
  · exact .inl (isAside horder hparty)

/-! ### Progress -/

namespace Entry

variable {ι : Type}

/-- Whether a shutdown took effect: an action has sealed the outputs. -/
def isEffect : Entry ι → Bool
  | .did _ (.bank (.seal _)) isFirst => isFirst
  | _ => false

/-- The answer of a shutdown. -/
def closed? : Entry ι → Option Bool
  | .ended _ (.closed isFirst) => some isFirst
  | _ => none

theorem isEffect_did {a : Action} (ha : a.isSealing = false) (who : ι) (reply : a.Reply) :
    (Entry.did who a reply).isEffect = false := by
  cases a with
  | bank op =>
    match op with
    | .configureAll pins | .set pin level | .allOff pins => rfl
    | .seal pins => cases ha
  | load | publish | wake | await | isClosing | close | sleep | yield | report => rfl

end Entry

namespace Ensemble

variable {ι σ : Type}

/-- How many shutdowns of an ensemble took effect. -/
def effects (e : Ensemble ι σ) : Nat := e.log.countP Entry.isEffect

/-- The answers of the shutdowns of an ensemble. -/
def answers (e : Ensemble ι σ) : List Bool := e.log.filterMap Entry.closed?

/-- How far the shutdown of an ensemble has come. The owner of the seal is the party that has
    sealed the outputs, until it answers. -/
structure Progress (pins : List Pin) (e : Ensemble ι σ) (owner : Option ι) : Prop where
  /-- The one shutdown that took effect is the one that has sealed the outputs. -/
  effects_eq : e.effects = e.world.isSealed.toNat
  /-- Only the owner has yet to say so. -/
  answers_eq : e.answers.count true + owner.toList.length = e.world.isSealed.toNat
  /-- No shutdown answers while the outputs are not sealed. -/
  isSealed_of_answers : e.answers ≠ [] → e.world.isSealed = true
  /-- The owner has been told that it is the first. -/
  owner_isTold : ∀ i ∈ owner, ∃ rest, e.parties i = .busy rest ∧ IsTold true rest
  /-- Everyone else is aside, or has yet to seal, or was told that it is not the first. -/
  others : ∀ i ∉ owner, ∀ rest, e.parties i = .busy rest →
    IsAside rest ∨ IsAwaiting pins rest ∨ IsTold false rest ∧ e.world.isSealed = true

theorem Progress.started {pins : List Pin} {world : World σ} (hworld : world.isSealed = false)
    {parties : ι → Party} (hrest : ∀ i rest, parties i ≠ .busy rest) :
    Progress pins (Ensemble.start world parties) none where
  effects_eq := by simp [Ensemble.start, effects, hworld]
  answers_eq := by simp [Ensemble.start, answers, hworld]
  isSealed_of_answers h := absurd rfl h
  owner_isTold i hi := by cases hi
  others i _ rest hbusy := absurd hbusy (hrest i rest)

variable [DecidableEq ι] {pins : List Pin} {map : ChannelMap} {e e' : Ensemble ι σ} {who : ι}
variable {owner owner' : Option ι} {world : World σ} {party : Party} {entry : Entry ι}

@[simp] theorem effects_record :
    (e.record world who party entry).effects = e.effects + entry.isEffect.toNat := by
  cases hentry : entry.isEffect <;> simp [effects, hentry]

@[simp] theorem answers_record :
    (e.record world who party entry).answers = e.answers ++ entry.closed?.toList := by
  cases hentry : entry.closed? <;> simp [answers, hentry]

/-- What happens to one party is progress when the seal, the effects and the answers change
    together and everyone else stays where it stands. -/
theorem Progress.record (h : Progress pins e owner)
    (heffect : world.isSealed.toNat = e.world.isSealed.toNat + entry.isEffect.toNat)
    (hanswer : entry.closed?.toList.count true + owner'.toList.length =
      owner.toList.length + entry.isEffect.toNat)
    (hclosed : entry.closed? ≠ none → e.world.isSealed = true)
    (hkeep : ∀ i ≠ who, i ∈ owner' ↔ i ∈ owner)
    (howner : who ∈ owner' → ∃ rest, party = .busy rest ∧ IsTold true rest)
    (hother : who ∉ owner' → ∀ rest, party = .busy rest →
      IsAside rest ∨ IsAwaiting pins rest ∨ IsTold false rest ∧ e.world.isSealed = true) :
    Progress pins (e.record world who party entry) owner' := by
  -- nothing breaks the seal
  have hsealed : e.world.isSealed = true → world.isSealed = true := by
    intro hs
    rw [hs] at heffect
    cases hw : world.isSealed with
    | true => rfl
    | false =>
      rw [hw] at heffect
      simp at heffect
      omega
  have heffects := h.effects_eq
  have hanswers := h.answers_eq
  refine ⟨?_, ?_, ?_, ?_, ?_⟩
  · rw [effects_record, world_record]
    omega
  · rw [answers_record, world_record, List.count_append]
    omega
  · intro hne
    by_cases hentry : entry.closed? = none
    · refine hsealed (h.isSealed_of_answers fun hnil => hne ?_)
      rw [answers_record, hnil, hentry]
      rfl
    · exact hsealed (hclosed hentry)
  · apply (forall_parties_record_iff
      (P := fun i p => i ∈ owner' → ∃ rest, p = .busy rest ∧ IsTold true rest)).2
    exact ⟨howner, fun i hi howns => h.owner_isTold i ((hkeep i hi).1 howns)⟩
  · apply (forall_parties_record_iff (P := fun i p => i ∉ owner' → ∀ rest, p = .busy rest →
      IsAside rest ∨ IsAwaiting pins rest ∨ IsTold false rest ∧ world.isSealed = true)).2
    -- the party that has moved, and the others
    constructor
    · intro hi rest hbusy
      exact (hother hi rest hbusy).imp_right (Or.imp_right (And.imp_right hsealed))
    · intro i hi hnot rest hbusy
      have hstands := h.others i (fun howns => hnot ((hkeep i hi).2 howns)) rest hbusy
      exact hstands.imp_right (Or.imp_right (And.imp_right hsealed))

theorem Progress.began (h : Progress map.pins e owner) {order : Order}
    {activity : Activity Outcome} (horder : order.activity map (e.parties who) = some activity) :
    Progress map.pins (e.record e.world who (.busy activity) (.began who order)) owner := by
  refine h.record rfl (by simp [Entry.isEffect, Entry.closed?]) (fun hne => absurd rfl hne)
    (fun _ _ => Iff.rfl) ?_ ?_
  · -- the owner of the seal is busy, so it can begin nothing
    intro hwho
    obtain ⟨rest, hbusy, _⟩ := h.owner_isTold who hwho
    exact absurd hbusy (Order.ne_busy horder rest)
  · intro _ rest hrest
    cases hrest
    exact (Order.isAside_or_isAwaiting horder).imp id .inl

/-- An action that does not seal changes nothing but where its party stands. -/
theorem Progress.did [PinDriver σ] (h : Progress pins e owner) {a : Action}
    {next : a.Reply → Activity Outcome} (ha : a.isSealing = false)
    (howner : who ∈ owner → IsTold true (next (e.world.act a).1))
    (hother : who ∉ owner → IsAside (next (e.world.act a).1) ∨
      IsAwaiting pins (next (e.world.act a).1) ∨
      IsTold false (next (e.world.act a).1) ∧ e.world.isSealed = true) :
    Progress pins (e.record (e.world.act a).2 who (.busy (next (e.world.act a).1))
      (.did who a (e.world.act a).1)) owner := by
  have heffect := Entry.isEffect_did ha who (e.world.act a).1
  refine h.record ?_ (by simp [heffect, Entry.closed?]) (fun hne => absurd rfl hne)
    (fun _ _ => Iff.rfl) (fun hwho => ⟨_, rfl, howner hwho⟩) ?_
  · rw [World.isSealed_act, ha, heffect, Bool.or_false]
    rfl
  · intro hwho rest hrest
    cases hrest
    exact hother hwho

/-- The first shutdown that seals becomes the owner; those that come later are told so. -/
theorem Progress.didSeal [PinDriver σ] (h : Progress pins e owner) (hwho : who ∉ owner)
    {next : Bool → Activity Outcome} (hnext : ∀ isFirst, IsTold isFirst (next isFirst)) :
    ∃ owner', Progress pins (e.record (e.world.act (.bank (.seal pins))).2 who
      (.busy (next (e.world.act (.bank (.seal pins))).1))
      (.did who (.bank (.seal pins)) (e.world.act (.bank (.seal pins))).1)) owner' := by
  have hreply := World.reply_seal pins e.world
  have hsealed := World.isSealed_act (.bank (.seal pins)) e.world
  have hanswers := h.answers_eq
  generalize e.world.act (.bank (.seal pins)) = acted at hreply hsealed ⊢
  obtain ⟨isFirst, world⟩ := acted
  simp only [Action.isSealing, Bool.or_true] at hreply hsealed
  cases hs : e.world.isSealed with
  | true =>
    -- a shutdown before this one has sealed the outputs
    refine ⟨owner, h.record ?_ ?_ (fun hne => absurd rfl hne) (fun _ _ => Iff.rfl)
      (fun h => absurd h hwho) ?_⟩
    · simp [Entry.isEffect, hreply, hsealed, hs]
    · simp [Entry.isEffect, Entry.closed?, hreply, hs]
    · intro _ rest hrest
      cases hrest
      rw [hreply, hs]
      exact .inr (.inr ⟨hnext false, rfl⟩)
  | false =>
    -- nobody owns the seal yet
    rw [hs] at hanswers
    have hnone : owner = none := by
      cases owner with
      | none => rfl
      | some i => simp at hanswers
    subst hnone
    refine ⟨some who, h.record ?_ ?_ (fun hne => absurd rfl hne) ?_ ?_ ?_⟩
    · simp [Entry.isEffect, hreply, hsealed, hs]
    · simp [Entry.isEffect, Entry.closed?, hreply, hs]
    · intro i hi
      simp [Ne.symm hi]
    · intro _
      refine ⟨_, rfl, ?_⟩
      rw [hreply, hs]
      exact hnext true
    · intro hne
      exact absurd rfl hne

/-- The owner answers that it is the first, and the seal has no owner any more. -/
theorem Progress.endedOwner (h : Progress pins e owner) (hwho : who ∈ owner) {outcome : Outcome}
    (hbusy : e.parties who = .busy (.done outcome)) :
    Progress pins (e.record e.world who outcome.party (.ended who outcome)) none := by
  obtain ⟨rest, hrest, htold⟩ := h.owner_isTold who hwho
  rw [hbusy] at hrest
  cases hrest
  have houtcome : outcome = .closed true := htold
  subst houtcome
  rw [Option.mem_def.1 hwho] at h
  have hs : e.world.isSealed = true := by
    have hanswers := h.answers_eq
    cases hs : e.world.isSealed with
    | true => rfl
    | false => simp [hs] at hanswers
  refine h.record rfl rfl (fun _ => hs) ?_ (fun h => by cases h) ?_
  · intro i hi
    simp [Ne.symm hi]
  · intro _ rest hrest
    cases hrest

/-- Nobody else answers that it is the first, nor anything at all before the outputs are sealed. -/
theorem Progress.ended (h : Progress pins e owner) (hwho : who ∉ owner) {outcome : Outcome}
    (hbusy : e.parties who = .busy (.done outcome)) :
    Progress pins (e.record e.world who outcome.party (.ended who outcome)) owner := by
  have hclosed : ∀ isFirst, outcome = .closed isFirst →
      isFirst = false ∧ e.world.isSealed = true := by
    intro isFirst heq
    rcases h.others who hwho _ hbusy with haside | hawaiting | ⟨htold, hs⟩
    · exact absurd heq (haside isFirst)
    · cases hawaiting
    · have houtcome : outcome = .closed false := htold
      rw [heq] at houtcome
      cases houtcome
      exact ⟨rfl, hs⟩
  refine h.record rfl ?_ ?_ (fun _ _ => Iff.rfl) (fun h => absurd h hwho) ?_
  · cases outcome with
    | closed isFirst =>
      obtain ⟨rfl, _⟩ := hclosed isFirst rfl
      simp [Entry.isEffect, Entry.closed?]
    | stepped | handled | installed | entered => simp [Entry.isEffect, Entry.closed?]
  · intro hne
    cases outcome with
    | closed isFirst => exact (hclosed isFirst rfl).2
    | stepped | handled | installed | entered => exact absurd rfl hne
  · intro _ rest hrest
    cases outcome <;> cases hrest

/-- Whatever happens is progress, possibly with another owner. -/
theorem Happens.progress [PinDriver σ] (hstep : Happens map e who entry e')
    (h : Progress map.pins e owner) : ∃ owner', Progress map.pins e' owner' := by
  cases hstep with
  | began order activity horder => exact ⟨owner, h.began horder⟩
  | ended outcome hbusy =>
    by_cases hwho : who ∈ owner
    · exact ⟨none, h.endedOwner hwho hbusy⟩
    · exact ⟨owner, h.ended hwho hbusy⟩
  | did action next hbusy =>
    by_cases hwho : who ∈ owner
    · -- all that the owner still does is to report
      obtain ⟨rest, hrest, htold⟩ := h.owner_isTold who hwho
      rw [hbusy] at hrest
      cases hrest
      exact ⟨owner, h.did htold.1 (fun _ => htold.2 _ trivial) fun hne => absurd hwho hne⟩
    · rcases h.others who hwho _ hbusy with haside | hawaiting | ⟨htold, hs⟩
      · refine ⟨owner, h.did haside.1 (fun h => absurd h hwho) fun _ => ?_⟩
        exact .inl (haside.2 _ trivial)
      · cases hawaiting with
        | now _ hnext => exact h.didSeal hwho hnext
        | later _ _ hallows hnext =>
          refine ⟨owner, h.did hallows (fun h => absurd h hwho) fun _ => ?_⟩
          exact .inr (.inl (hnext _ trivial))
      · refine ⟨owner, h.did htold.1 (fun h => absurd h hwho) fun _ => ?_⟩
        exact .inr (.inr ⟨htold.2 _ trivial, hs⟩)

end Ensemble

/-! ### Outputs -/

theorem isSettingUp_of_mapped {map : ChannelMap} {a : Action} (ha : (mapped map).allows a) :
    a.isSettingUp = false := by
  cases a with
  | bank op =>
    match op with
    | .configureAll pins => cases ha
    | .set pin level | .allOff pins | .seal pins => rfl
  | load | publish | wake | await | isClosing | close | sleep | yield | report => rfl

/-- The conduct of a channel map drives its pins and no others. -/
theorem calls_of_mapped {map : ChannelMap} {a : Action} (ha : (mapped map).allows a)
    (isSealed : Bool) {call : Call} (hcall : call ∈ a.calls isSealed) :
    ∃ pin ∈ map.pins, ∃ level, call = .set pin level := by
  cases isSealed with
  | true =>
    rw [Action.calls_of_isSealed] at hcall
    cases hcall
  | false =>
    cases a with
    | bank op =>
      match op with
      | .configureAll pins => cases ha
      | .set pin level => exact ⟨pin, ha, level, List.mem_singleton.1 hcall⟩
      | .allOff pins | .seal pins =>
        have hpins : pins = map.pins := ha
        subst hpins
        obtain ⟨pin, hpin, rfl⟩ := List.mem_map.1 hcall
        exact ⟨pin, hpin, .low, rfl⟩
    | load | publish | wake | await | isClosing | close | sleep | yield | report => cases hcall

namespace Ensemble

variable {ι σ : Type}

/-- What the driver of an ensemble was given. -/
structure Confined (map : ChannelMap) (e : Ensemble ι σ) : Prop where
  /-- No call is to any pin but those of the map. -/
  mapped : ∀ a ∈ e.world.calls, ∃ pin ∈ map.pins, ∃ level, a.1 = .set pin level
  /-- The last calls before the outputs were sealed switched every pin of the map off, in order. -/
  lowered : e.world.isSealed = true → ∃ earlier lows : List Attempt,
    e.world.calls = earlier ++ lows ∧ lows.map Prod.fst = map.pins.map fun pin => .set pin .low

variable [DecidableEq ι] [PinDriver σ] {map : ChannelMap} {e e' : Ensemble ι σ} {who : ι}
variable {entry : Entry ι}

theorem Happens.confined (hstep : Happens map e who entry e') (hmapped : e.IsMapped map)
    (h : e.Confined map) : e'.Confined map := by
  cases hstep with
  | began order activity horder => exact ⟨h.mapped, h.lowered⟩
  | ended outcome hbusy => exact ⟨h.mapped, h.lowered⟩
  | did a next hbusy =>
    have ha : (LedSequencer.mapped map).allows a := (hmapped.follows hbusy).1
    obtain ⟨attempts, hcalls, hattempts, _⟩ := World.called_act (isSettingUp_of_mapped ha) e.world
    refine ⟨?_, ?_⟩
    · intro attempt hattempt
      rw [world_record, hcalls] at hattempt
      rcases List.mem_append.1 hattempt with hearlier | hnow
      · exact h.mapped attempt hearlier
      · refine calls_of_mapped ha e.world.isSealed ?_
        rw [← hattempts]
        exact List.mem_map_of_mem hnow
    · intro hs
      rw [world_record, World.isSealed_act] at hs
      rw [world_record, hcalls]
      cases hsealed : e.world.isSealed with
      | true =>
        -- they were sealed before, and nothing is added
        rw [hsealed, Action.calls_of_isSealed, List.map_eq_nil_iff] at hattempts
        rw [hattempts, List.append_nil]
        exact h.lowered hsealed
      | false =>
        -- the outputs were sealed just now
        rw [hsealed, Bool.false_or] at hs
        rw [hsealed] at hattempts
        cases a with
        | bank op =>
          match op with
          | .configureAll pins | .set pin level | .allOff pins => cases hs
          | .seal pins =>
            have hpins : pins = map.pins := ha
            subst hpins
            exact ⟨_, attempts, rfl, hattempts⟩
        | load | publish | wake | await | isClosing | close | sleep | yield | report => cases hs

/-- Once the outputs are sealed, nobody makes another call. -/
theorem calls_play_of_isSealed (h : e.IsMapped map) (hs : e.world.isSealed = true)
    (schedule : List (ι × Move)) : (e.play map schedule).world.calls = e.world.calls := by
  suffices hplay : (e.play map schedule).IsMapped map ∧
      (e.play map schedule).world.isSealed = true ∧
      (e.play map schedule).world.calls = e.world.calls from hplay.2.2
  refine play_induction (P := fun e' => e'.IsMapped map ∧ e'.world.isSealed = true ∧
    e'.world.calls = e.world.calls) ?_ ⟨h, hs, rfl⟩ schedule
  rintro e₁ who entry e₂ ⟨hmapped, hsealed, hcalls⟩ hstep
  refine ⟨hstep.isMapped hmapped, ?_⟩
  cases hstep with
  | began order activity horder => exact ⟨hsealed, hcalls⟩
  | ended outcome hbusy => exact ⟨hsealed, hcalls⟩
  | did a next hbusy =>
    have ha : (mapped map).allows a := (hmapped.follows hbusy).1
    obtain ⟨attempts, hcalls', hattempts, _⟩ := World.called_act (isSettingUp_of_mapped ha) e₁.world
    rw [hsealed, Action.calls_of_isSealed, List.map_eq_nil_iff] at hattempts
    rw [hattempts, List.append_nil] at hcalls'
    refine ⟨?_, hcalls'.trans hcalls⟩
    rw [world_record, World.isSealed_act, hsealed, Bool.true_or]

end Ensemble

/-! ### The shutdown of a sequencer -/

/-- Who takes part in a sequencer. -/
inductive Role where
  /-- A player from the start. -/
  | player
  /-- A session. -/
  | session
  /-- Someone who shuts the sequencer down. -/
  | closer
  /-- A player that is made later on. -/
  | newcomer
deriving DecidableEq

/-- Where everyone stands at the start. -/
def Role.party (map : ChannelMap) : Role → Party
  | .player => .player (.start .first)
  | .session => .session (.start map)
  | .closer => .closer
  | .newcomer => .newcomer

/-- A sequencer at the start: nothing is sealed and the idle sequence is active. -/
def sequencer {ι σ : Type} (map : ChannelMap) (driver : σ) (cast : ι → Role) : Ensemble ι σ :=
  .start (.start driver) fun i => (cast i).party map

namespace Ensemble

variable {ι σ : Type}

theorem isMapped_sequencer (map : ChannelMap) (driver : σ) (cast : ι → Role) :
    (sequencer map driver cast).IsMapped map := by
  refine ⟨Sequence.within_idle map.pins, ?_⟩
  intro i
  show ((cast i).party map).IsMapped map
  cases cast i with
  | player => exact Sequence.within_idle map.pins
  | session => exact rfl
  | closer | newcomer => trivial

theorem progress_sequencer (map : ChannelMap) (driver : σ) (cast : ι → Role) :
    Progress map.pins (sequencer map driver cast) none := by
  apply Progress.started rfl
  intro i rest
  show (cast i).party map ≠ .busy rest
  cases cast i <;> exact Party.noConfusion

theorem confined_sequencer (map : ChannelMap) (driver : σ) (cast : ι → Role) :
    (sequencer map driver cast).Confined map := by
  constructor
  · intro a ha
    cases ha
  · intro hs
    cases hs

/-- In every order of turns of players, sessions and any number of shutdowns, at most one shutdown
    answers that it is the first. Once any has answered, exactly one has taken effect, the driver is
    given no other call, and its last calls switched every pin of the map off, in the order of the
    map and each once. Unless one of these failed, every pin that was ever driven high is low. -/
theorem shutDown_once_and_dark [DecidableEq ι] [PinDriver σ] {text : String} {map : ChannelMap}
    (hmap : ChannelMap.ofText text = .ok map) (driver : σ) (cast : ι → Role)
    (schedule more : List (ι × Move)) :
    let e := (sequencer map driver cast).play map schedule
    e.answers.count true ≤ 1 ∧
      (e.answers ≠ [] →
        e.effects = 1 ∧ (e.play map more).world.calls = e.world.calls ∧
        ∃ earlier lows : List Attempt, e.world.calls = earlier ++ lows ∧
          lows.map Prod.fst = map.pins.map (fun pin => .set pin .low) ∧ map.pins.Nodup ∧
          ((∀ a ∈ lows, a.2 = none) → ∀ pin fault, (.set pin .high, fault) ∈ e.world.calls →
            Attempt.lastWrite? pin e.world.calls = some (.low, none))) := by
  intro e
  obtain ⟨⟨owner, hprogress⟩, hmapped, hconfined⟩ :
      (∃ owner, Progress map.pins e owner) ∧ e.IsMapped map ∧ e.Confined map := by
    refine play_induction (P := fun e => (∃ owner, Progress map.pins e owner) ∧ e.IsMapped map ∧
      e.Confined map) ?_ ⟨⟨none, progress_sequencer map driver cast⟩,
        isMapped_sequencer map driver cast, confined_sequencer map driver cast⟩ schedule
    rintro e₁ who entry e₂ ⟨⟨owner, hprogress⟩, hmapped, hconfined⟩ hstep
    exact ⟨hstep.progress hprogress, hstep.isMapped hmapped, hstep.confined hmapped hconfined⟩
  have hanswers := hprogress.answers_eq
  constructor
  · have hle : e.world.isSealed.toNat ≤ 1 := Bool.toNat_le e.world.isSealed
    omega
  intro hne
  have hs := hprogress.isSealed_of_answers hne
  obtain ⟨earlier, lows, hcalls, hlows⟩ := hconfined.lowered hs
  refine ⟨?_, calls_play_of_isSealed hmapped hs more, earlier, lows, hcalls, hlows,
    ChannelMap.nodup_pins_of_ofText hmap, ?_⟩
  · rw [hprogress.effects_eq, hs]
    rfl
  · intro hfaults pin fault hhigh
    obtain ⟨pin', hpin, level, heq⟩ := hconfined.mapped _ hhigh
    cases heq
    rw [hcalls, Attempt.lastWrite?_append, Attempt.lastWrite?_of_lowered hlows hfaults hpin]
    rfl

/-- A map with one channel. -/
def single : ChannelMap where
  leds := [{ name := "A", channels := [{ letter := 'r', pin := ⟨1⟩, letter_isLower := Eq.refl true }] }]

/-- A shutdown comes while a player is about to drive the pin of `single` high once more. -/
def rush : List (Role × Move) :=
  (Role.session, Move.begin (.line "R R")) :: List.replicate 6 (Role.session, Move.proceed) ++
    (Role.player, Move.begin .step) :: List.replicate 4 (Role.player, Move.proceed) ++
    (Role.player, Move.begin .step) :: (Role.player, Move.proceed) ::
    (Role.closer, Move.begin .shutDown) :: List.replicate 6 (Role.closer, Move.proceed) ++
    List.replicate 3 (Role.player, Move.proceed)

theorem shutDown_once_and_dark_rush :
    ChannelMap.ofText "[A]\nr = 1\n" = .ok single ∧
      let e := (sequencer single Hardware.nothing id).play single rush
      e.effects = 1 ∧ (.set ⟨1⟩ .high, none) ∈ e.world.calls ∧
        Attempt.lastWrite? ⟨1⟩ e.world.calls = some (.low, none) := by
  have hmap : ChannelMap.ofText "[A]\nr = 1\n" = .ok single := by decide +kernel
  have hanswers : ((sequencer single Hardware.nothing id).play single rush).answers ≠ [] := by
    decide +kernel
  have hhigh : (.set ⟨1⟩ .high, none) ∈
      ((sequencer single Hardware.nothing id).play single rush).world.calls := by decide +kernel
  have hfaults : ∀ a ∈ ((sequencer single Hardware.nothing id).play single rush).world.calls,
      a.2 = none := by decide +kernel
  obtain ⟨_, hclosed⟩ := shutDown_once_and_dark hmap Hardware.nothing id rush []
  obtain ⟨heffects, _, earlier, lows, hcalls, _, _, hdark⟩ := hclosed hanswers
  refine ⟨hmap, heffects, hhigh, hdark (fun a ha => hfaults a ?_) ⟨1⟩ none hhigh⟩
  rw [hcalls]
  exact List.mem_append_right earlier ha

end Ensemble

end LedSequencer
