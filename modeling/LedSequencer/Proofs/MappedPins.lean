import LedSequencer.Proofs.Activities
import LedSequencer.Proofs.Emission
import LedSequencer.Proofs.Ensemble
import LedSequencer.Proofs.Outputs

/-! # Nothing but mapped pins

  Lines compile to sequences that write no pin but those of the channel map, and as long
  as every active sequence comes from a line, the same is true of everything that
  players and sessions do. The conduct `mapped` says so of a party that is in the middle
  of an activity; an ensemble without installers keeps to it (`Happens.isMapped`).
-/

namespace LedSequencer

/-! ### Sequences -/

/-- A sequence writes no other pins than these. -/
def Sequence.Within (pins : List Pin) (s : Sequence) : Prop :=
  ∀ op ∈ s.body, ∀ pin level, op.transition = some (pin, level) → pin ∈ pins

theorem Sequence.within_idle (pins : List Pin) : Sequence.idle.Within pins := by
  intro op hop
  simp [Sequence.idle] at hop

theorem Sequence.Within.get {pins : List Pin} {s : Sequence} (h : s.Within pins) {i : Nat}
    {pin : Pin} {level : Level} (ht : (s.get i).transition = some (pin, level)) : pin ∈ pins := by
  rcases s.get_mem_or_eq i with hmem | hrewind
  · exact h _ hmem pin level ht
  · rw [hrewind] at ht
    cases ht

/-! ### Lines -/

namespace ChannelMap

theorem mem_pins_of_led? {map : ChannelMap} {i : Nat} {led : Led} (h : map.led? i = some led)
    {pin : Pin} (hpin : pin ∈ led.pins) : pin ∈ map.pins :=
  List.mem_flatMap.2 ⟨led, List.mem_of_getElem? h, hpin⟩

end ChannelMap

theorem Led.mem_pins_of_pin? {led : Led} {c : Char} {pin : Pin} (h : led.pin? c = some pin) :
    pin ∈ led.pins := by
  unfold Led.pin? at h
  obtain ⟨channel, hfind, rfl⟩ := Option.map_eq_some_iff.1 h
  exact List.mem_map_of_mem (List.mem_of_find?_eq_some hfind)

/-- A letter switches the pin of its channel. -/
theorem mem_pins_of_letterFate {led : Led} {c : Char} {op : Operation}
    (hop : (letterFate led c).operation? = some op) {pin : Pin} {level : Level}
    (ht : op.transition = some (pin, level)) : pin ∈ led.pins := by
  unfold letterFate at hop
  split at hop
  · next p hp =>
    have hpin : pin = p := by
      cases hop
      unfold Draft.letterOperation at ht
      split at ht <;>
      · cases ht
        rfl
    rw [hpin]
    exact Led.mem_pins_of_pin? hp
  · cases hop

/-- A token writes pins of the selected LED alone. -/
theorem mem_pins_of_mem_tokenFates {map : ChannelMap} {led : Nat} {t : Token} {op : Operation}
    (hop : op ∈ Fate.operations (tokenFates map led t)) {pin : Pin} {level : Level}
    (ht : op.transition = some (pin, level)) :
    ∃ l, map.led? led = some l ∧ pin ∈ l.pins := by
  cases t with
  | select name =>
    unfold tokenFates at hop
    cases hfind : map.find? name <;> simp [hfind] at hop
  | pause length =>
    -- a pause writes nothing
    rw [List.mem_singleton.1 hop] at ht
    cases ht
  | channels letters =>
    cases hled : map.led? led with
    | none => simp [tokenFates, hled] at hop
    | some l =>
      simp only [tokenFates, hled, Fate.operations, List.mem_filterMap, List.mem_map] at hop
      obtain ⟨_, ⟨c, _, rfl⟩, hop⟩ := hop
      exact ⟨l, rfl, mem_pins_of_letterFate hop ht⟩
  | allOff =>
    cases hled : map.led? led with
    | none => simp [tokenFates, hled] at hop
    | some l =>
      simp only [tokenFates, hled, Fate.operations, List.mem_filterMap, List.mem_map] at hop
      obtain ⟨_, ⟨p, hp, rfl⟩, hop⟩ := hop
      cases hop
      cases ht
      exact ⟨l, rfl, hp⟩
  | unknown word => simp [tokenFates] at hop

/-- A word writes pins of the selected LED alone. -/
theorem mem_pins_of_mem_emission {map : ChannelMap} {led : Nat} {word : List Char} {op : Operation}
    (hop : op ∈ emission map led word) {pin : Pin} {level : Level}
    (ht : op.transition = some (pin, level)) :
    ∃ l, map.led? led = some l ∧ pin ∈ l.pins := by
  rw [← operations_tokenFates_ofWord] at hop
  exact mem_pins_of_mem_tokenFates hop ht

theorem mem_pins_of_mem_emissions {map : ChannelMap} {led : Nat} {words : List (List Char)}
    {op : Operation} (hop : op ∈ emissions map led words) {pin : Pin} {level : Level}
    (ht : op.transition = some (pin, level)) : pin ∈ map.pins := by
  induction words generalizing led with
  | nil => cases hop
  | cons word rest ih =>
    rw [emissions] at hop
    rcases List.mem_append.1 hop with hop | hop
    · obtain ⟨l, hl, hpin⟩ := mem_pins_of_mem_emission hop ht
      exact ChannelMap.mem_pins_of_led? hl hpin
    · exact ih hop

/-- A line writes mapped pins alone. -/
theorem within_of_compile {line : String} {map : ChannelMap} {led : Nat} {c : Compiled}
    (h : compile line map led = .ok c) : c.sequence.Within map.pins := by
  rw [compile_eq] at h
  simp only at h
  split at h
  · next hlength =>
    cases h
    intro op hop pin level ht
    have hbody := Sequence.body_ofList (rewind_notMem_emissions map led _) hlength
    have hmem : op ∈ emissions map led (words line.toList) := by
      rw [← hbody]
      exact Array.mem_toList_iff.2 hop
    exact mem_pins_of_mem_emissions hmem ht
  · cases h

/-! ### Activities -/

/-- The conduct of everyone who keeps to the pins of a channel map: only sequences within the map
    are made active, no other pin is driven, and no pin is set up. That the active sequence is
    within the map is counted on. -/
def mapped (map : ChannelMap) : Conduct Action Action.Reply where
  allows
    | .publish s => s.Within map.pins
    | .bank (.configureAll _) => False
    | .bank (.set pin _) => pin ∈ map.pins
    | .bank (.allOff pins) => pins = map.pins
    | .bank (.seal pins) => pins = map.pins
    | _ => True
  expects
    | .load, active => active.sequence.Within map.pins
    | _, _ => True

/-- What comes of an activity is within a channel map. -/
def Outcome.IsMapped (map : ChannelMap) : Outcome → Prop
  | .stepped _ p => p.held.sequence.Within map.pins
  | .handled _ s => s.map = map
  | .installed => False
  | .closed _ => True
  | .entered p => p.held.sequence.Within map.pins

/-- A party is within a channel map, at rest or in the middle of an activity. -/
def Party.IsMapped (map : ChannelMap) : Party → Prop
  | .player p => p.held.sequence.Within map.pins
  | .session s => s.map = map
  | .installer => False
  | .closer => True
  | .newcomer => True
  | .busy rest => rest.Follows (mapped map) (Outcome.IsMapped map)

variable {map : ChannelMap}

theorem Outcome.IsMapped.party {o : Outcome} (h : o.IsMapped map) : o.party.IsMapped map := by
  cases o <;> exact h

theorem mapped_lenient (map : ChannelMap) : (mapped map).Lenient := by
  intro a ha
  cases a with
  | wake | sleep | yield | report => trivial
  | load | publish | await | isClosing | close | bank => cases ha

theorem Player.within_adopt {p : Player} {active : Published}
    (hp : p.held.sequence.Within map.pins) (hactive : active.sequence.Within map.pins) :
    (p.adopt active).held.sequence.Within map.pins := by
  rcases p.held_adopt active with h | h
  · rw [h]
    exact hp
  · rw [h]
    exact hactive

theorem follows_ofStep {p : Player} (hp : p.held.sequence.Within map.pins) :
    (Activity.ofStep p).Follows (mapped map) (Outcome.IsMapped map) := by
  refine (Player.follows_step (mapped_lenient map) trivial ?_).bind ?_
  · intro active hactive pin level ht
    exact (Player.within_adopt hp hactive).get ht
  · rintro stepped ⟨active, hactive, rfl⟩
    show (p.adopt active).advance.held.sequence.Within map.pins
    rw [Player.held_advance]
    exact Player.within_adopt hp hactive

theorem follows_ofLine {s : Session} (hs : s.map = map) (text : String) :
    (Activity.ofLine s text).Follows (mapped map) (Outcome.IsMapped map) := by
  subst hs
  refine (Session.follows_handleLine (mapped_lenient s.map) rfl ?_).bind fun _ h => h
  intro compiled hcompiled
  exact within_of_compile hcompiled

/-- What a party within the map is ordered to do keeps to the map. -/
theorem Party.IsMapped.activity {party : Party} (h : party.IsMapped map) {order : Order}
    {activity : Activity Outcome} (horder : order.activity map party = some activity) :
    activity.Follows (mapped map) (Outcome.IsMapped map) := by
  cases order with
  | step =>
    cases party <;> cases horder
    exact follows_ofStep h
  | line text =>
    cases party <;> cases horder
    exact follows_ofLine h text
  | install sequence =>
    cases party <;> cases horder
    cases h
  | shutDown =>
    cases party <;> cases horder
    exact (Activity.follows_shutDown (mapped_lenient map) trivial rfl).bind fun _ _ => trivial
  | enter =>
    cases party <;> cases horder
    exact ⟨trivial, fun active hactive => hactive⟩

/-! ### Ensembles -/

namespace Ensemble

variable {ι σ : Type}

/-- An ensemble keeps to a channel map. -/
structure IsMapped (map : ChannelMap) (e : Ensemble ι σ) : Prop where
  /-- The active sequence is within the map. -/
  active : e.world.active.sequence.Within map.pins
  /-- Every party is within the map. -/
  parties : ∀ i, (e.parties i).IsMapped map

variable {e e' : Ensemble ι σ} {who : ι} {entry : Entry ι}

theorem IsMapped.follows (h : e.IsMapped map) {rest : Activity Outcome}
    (hbusy : e.parties who = .busy rest) : rest.Follows (mapped map) (Outcome.IsMapped map) := by
  have hparty := h.parties who
  rw [hbusy] at hparty
  exact hparty

variable [DecidableEq ι]

theorem IsMapped.record (h : e.IsMapped map) {world : World σ} {party : Party}
    (hactive : world.active.sequence.Within map.pins) (hparty : party.IsMapped map) :
    (e.record world who party entry).IsMapped map := by
  refine ⟨hactive, ?_⟩
  apply (forall_parties_record_iff (P := fun _ p => p.IsMapped map)).2
  exact ⟨hparty, fun i _ => h.parties i⟩

variable [PinDriver σ]

/-- A turn keeps to the map. -/
theorem Happens.isMapped (hstep : Happens map e who entry e') (h : e.IsMapped map) :
    e'.IsMapped map := by
  cases hstep with
  | began order activity horder => exact h.record h.active ((h.parties who).activity horder)
  | did action next hbusy =>
    obtain ⟨hallows, hnext⟩ := h.follows hbusy
    -- the replies that the conduct counts on are the replies that are given
    have hexpects : (mapped map).expects action (e.world.act action).1 := by
      cases action with
      | load => exact h.active
      | publish | wake | await | isClosing | close | bank | sleep | yield | report => trivial
    refine h.record ?_ (hnext _ hexpects)
    rw [World.active_act]
    cases action with
    | publish s => exact hallows
    | load | wake | await | isClosing | close | bank | sleep | yield | report => exact h.active
  | ended outcome hbusy =>
    have hdone : outcome.IsMapped map := h.follows hbusy
    exact h.record h.active hdone.party

end Ensemble

end LedSequencer
