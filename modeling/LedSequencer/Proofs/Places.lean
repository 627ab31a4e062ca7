import LedSequencer.Proofs.Lobby
import LedSequencer.Proofs.Outputs

/-! # Places in a lobby

  Where a party stands in a wake or in a wait says what the log of the lobby holds, and
  the log says in turn what became of every wait.

  * **Hands**: an outdated identity is not the active one.
  * **Places**: how far a party has come, and what the log holds then.
  * **Turns**: each turn brings a party from one place to the next.
  * **The log**: what a wait answers, and who parks in it.
-/

namespace LedSequencer

/-! ### Hands -/

section

variable {ι : Type} [DecidableEq ι] {i j : ι} {id : Nat} {log : List (Occurrence ι)}

/-- What a party has just taken is not outdated. -/
theorem isOutdated_look_iff {found : Published} :
    IsOutdated i id (.did j .load found :: log) ↔ j ≠ i ∧ IsOutdated i id log := by
  by_cases hj : j = i
  · simp [IsOutdated, Occurrence.outdates?, hj]
  · simp [IsOutdated, inHand?, Occurrence.outdates?, Occurrence.hand?, hj]

/-- What a party has let go of is not outdated either. -/
theorem isOutdated_dropped_iff :
    IsOutdated i id (.dropped j :: log) ↔ j ≠ i ∧ IsOutdated i id log := by
  by_cases hj : j = i
  · simp [IsOutdated, inHand?, Occurrence.hand?, hj]
  · simp [IsOutdated, inHand?, Occurrence.outdates?, Occurrence.hand?, hj]

/-- The log back from the last turning of a party. -/
def lastTurning (i : ι) (log : List (Occurrence ι)) : List (Occurrence ι) :=
  log.dropWhile fun o => !o.isTurning i

theorem lastTurning_of_isTurning {o : Occurrence ι} (ho : o.isTurning i = true) :
    lastTurning i (o :: log) = o :: log :=
  List.dropWhile_cons_of_neg (by simp [ho])

theorem lastTurning_cons {o : Occurrence ι} (ho : o.isTurning i = false) :
    lastTurning i (o :: log) = lastTurning i log := by
  simp [lastTurning, ho]

theorem lastTurning_append {since : List (Occurrence ι)}
    (hsince : ∀ o ∈ since, o.isTurning i = false) :
    lastTurning i (since ++ log) = lastTurning i log :=
  List.dropWhile_append_of_pos fun o ho => by simp [hsince o ho]

/-- As long as a party takes up nothing else, an outdated identity stays so. -/
theorem IsOutdated.of_lastTurning (h : IsOutdated i id (lastTurning i log)) :
    IsOutdated i id log := by
  induction log with
  | nil => exact h
  | cons o rest ih =>
    by_cases ho : o.isTurning i = true
    · rwa [lastTurning_of_isTurning ho] at h
    · have ho : o.isTurning i = false := Bool.eq_false_iff.2 ho
      rw [lastTurning_cons ho] at h
      cases o with
      | stored who made => exact ⟨(ih h).1, rfl⟩
      | dropped who => exact isOutdated_dropped_iff.2 ⟨of_decide_eq_false ho, ih h⟩
      | did who a reply =>
        cases a with
        | load => exact isOutdated_look_iff.2 ⟨of_decide_eq_false ho, ih h⟩
        | publish | wake | await | isClosing | close | bank | sleep | yield | report =>
          exact ih h
      | began | compared | notified | parked | ended => exact ih h

end

/-- Only who makes a sequence active changes which one is. -/
theorem World.active_act_of_not_isPublish {σ : Type} [PinDriver σ] {a : Action}
    (ha : a.isPublish = false) (w : World σ) : (w.act a).2.active = w.active := by
  rw [World.active_act]
  cases a with
  | publish => cases ha
  | load | wake | await | isClosing | close | bank | sleep | yield | report => rfl

namespace Lobby

variable {ι σ : Type} [DecidableEq ι] [PinDriver σ]

/-- What a party has in hand does not become active again once it has been replaced. -/
theorem IsReachable.ne_of_isOutdated {l : Lobby ι σ} (h : l.IsReachable) {i : ι} {id : Nat}
    (hid : IsOutdated i id l.log) : l.world.active.id ≠ id := by
  induction h with
  | start world => cases hid.1
  | @step l l' j _ hstep ih =>
    cases hstep with
    | @acts a next hj ha hpublish =>
      show (l.world.act a).2.active.id ≠ id
      rw [World.active_act_of_not_isPublish hpublish]
      apply ih
      cases a with
      | load => exact (isOutdated_look_iff.1 hid).2
      | publish | wake | await | isClosing | close | bank | sleep | yield | report => exact hid
    | drops => exact ih (isOutdated_dropped_iff.1 hid).2
    | @stores s next new hj hfresh =>
      -- the new identity is in nobody's hands
      intro heq
      exact hfresh.2 i (hid.1.trans (congrArg some heq.symm))
    | begins | enters | locks | unlocks | compares | notifies | parks | expires | relocks
    | leaves => exact ih hid

/-- The sequence that was stored last is active. -/
theorem IsReachable.active_eq_of_stored {l : Lobby ι σ} (h : l.IsReachable) {made : Published}
    (hmade : lastStored? l.log = some made) : l.world.active = made := by
  induction h with
  | start world => cases hmade
  | @step l l' j _ hstep ih =>
    cases hstep with
    | acts _ _ hpublish => exact (World.active_act_of_not_isPublish hpublish _).trans (ih hmade)
    | stores => exact Option.some.inj hmade
    | begins | drops | enters | locks | unlocks | compares | notifies | parks | expires | relocks
    | leaves => exact ih hmade

end Lobby

/-! ### Places -/

namespace Watch

/-- What is left of a wake once it has the lock. -/
def afterLock : Watch Unit := do
  notifyAll
  unlock

/-- What is left of a wait after its park. -/
def lookAgain (id : Nat) : Watch Bool := do
  let answer ← differs id
  unlock
  pure answer

/-- What is left of a wait once it has the lock. -/
def lookFirst (id : Nat) : Watch Bool := do
  unless ← differs id do park
  lookAgain id

end Watch

section

variable {ι : Type} [DecidableEq ι]

/-- A party waits for something else than one identity, since this was the log. -/
structure Waits (i : ι) (id : Nat) (before log : List (Occurrence ι)) : Prop where
  /-- It has made no other turn since the wait began. -/
  began : lastTurning i log = .began i (.await id) :: before
  /-- It owes nobody a notice. -/
  paid : ¬ OwesNotice i log

/-- How far a party has come with a wake. Once it has stirred everyone, it owes no notice. -/
inductive Waking (i : ι) (log : List (Occurrence ι)) : Watch Unit → Prop where
  | toLock : Waking i log Watch.wake
  | toNotify : Waking i log Watch.afterLock
  | toUnlock (hpaid : ¬ OwesNotice i log) : Waking i log Watch.unlock
  | finished (hpaid : ¬ OwesNotice i log) : Waking i log (.done ())

/-- How far a party has come with a wait. It is about to park only if the identity was not outdated
    when the wait began, and it answers what it found in its last comparison. -/
inductive Waiting (i : ι) (id : Nat) (before log : List (Occurrence ι)) : Watch Bool → Prop where
  | toLock : Waiting i id before log (Watch.await id)
  | toLook : Waiting i id before log (Watch.lookFirst id)
  | toPark (hcurrent : ¬ IsOutdated i id before) :
      Waiting i id before log (.ask .park fun _ => Watch.lookAgain id)
  | toLookAgain : Waiting i id before log (Watch.lookAgain id)
  | toUnlock {found : Nat} (hfound : lastCompared? i log = some (id, found)) :
      Waiting i id before log (.ask .unlock fun _ => .done (found != id))
  | finished {found : Nat} (hfound : lastCompared? i log = some (id, found)) :
      Waiting i id before log (.done (found != id))

/-- Where a party stands, and what the log holds then. -/
inductive Placed (i : ι) (log : List (Occurrence ι)) : Stance → Prop where
  /-- It goes on with an activity, or is free. -/
  | between {rest : Activity Unit} (hrest : rest.IsPrompt) (hpaid : ¬ OwesNotice i log) :
      Placed i log (.busy rest)
  /-- It has made a sequence active. -/
  | toWake {next : Unit → Activity Unit} (hnext : (next ()).IsPrompt) :
      Placed i log (.busy (.ask .wake next))
  | waking {rest : Watch Unit} {next : Unit → Activity Unit} (hnext : (next ()).IsPrompt)
      (hrest : Waking i log rest) : Placed i log (.amid .wake rest next)
  | waiting {id : Nat} {before : List (Occurrence ι)} {rest : Watch Bool}
      {next : Bool → Activity Unit} (hnext : ∀ reply, (next reply).IsPrompt)
      (hwaits : Waits i id before log) (hrest : Waiting i id before log rest) :
      Placed i log (.amid (.await id) rest next)
  | parked {id : Nat} {before : List (Occurrence ι)} {next : Bool → Activity Unit}
      (hnext : ∀ reply, (next reply).IsPrompt) (hwaits : Waits i id before log) :
      Placed i log (.parked (.await id) (Watch.lookAgain id) next)
  | stirred {id : Nat} {before : List (Occurrence ι)} {next : Bool → Activity Unit}
      (hnext : ∀ reply, (next reply).IsPrompt) (hwaits : Waits i id before log) :
      Placed i log (.stirred (.await id) (Watch.lookAgain id) next)

variable {i : ι} {id : Nat} {before log : List (Occurrence ι)} {o : Occurrence ι}

theorem not_owesNotice_cons (h : ¬ OwesNotice i log) (howes : o.owes? i = none) :
    ¬ OwesNotice i (o :: log) := by
  rwa [OwesNotice, List.findSome?_cons, howes]

/-- A wait goes on while the party only compares or parks, and whatever others do. -/
theorem Waits.cons (h : Waits i id before log) (hturning : o.isTurning i = false)
    (howes : o.owes? i = none) : Waits i id before (o :: log) :=
  ⟨(lastTurning_cons hturning).trans h.began, not_owesNotice_cons h.paid howes⟩

/-- What was outdated when a wait began is so until its end. -/
theorem Waits.isOutdated (h : Waits i id before log) (hbefore : IsOutdated i id before) :
    IsOutdated i id log := by
  apply IsOutdated.of_lastTurning
  rw [h.began]
  exact hbefore

/-- What others do does not concern a party. -/
theorem Placed.cons {s : Stance} (h : Placed i log s) (ho : o.who ≠ i) : Placed i (o :: log) s := by
  have hturning : o.isTurning i = false := by
    cases o <;> first | rfl | exact decide_eq_false ho
  have howes : o.owes? i = none := by
    cases o <;> first | rfl | exact if_neg ho
  have hcompared : o.compared? i = none := by
    cases o <;> first | rfl | exact if_neg ho
  have hlast : lastCompared? i (o :: log) = lastCompared? i log := by
    rw [lastCompared?, List.findSome?_cons, hcompared]
    rfl
  cases h with
  | between hrest hpaid => exact .between hrest (not_owesNotice_cons hpaid howes)
  | toWake hnext => exact .toWake hnext
  | waking hnext hrest =>
    apply Placed.waking hnext
    cases hrest with
    | toLock => exact .toLock
    | toNotify => exact .toNotify
    | toUnlock hpaid => exact .toUnlock (not_owesNotice_cons hpaid howes)
    | finished hpaid => exact .finished (not_owesNotice_cons hpaid howes)
  | waiting hnext hwaits hrest =>
    apply Placed.waiting hnext (hwaits.cons hturning howes)
    cases hrest with
    | toLock => exact .toLock
    | toLook => exact .toLook
    | toPark hcurrent => exact .toPark hcurrent
    | toLookAgain => exact .toLookAgain
    | toUnlock hfound => exact .toUnlock (hlast.trans hfound)
    | finished hfound => exact .finished (hlast.trans hfound)
  | parked hnext hwaits => exact .parked hnext (hwaits.cons hturning howes)
  | stirred hnext hwaits => exact .stirred hnext (hwaits.cons hturning howes)

/-- Stirring everyone moves those who are parked, and nobody else. -/
theorem Placed.stir {s : Stance} (h : Placed i log s) : Placed i log s.stir := by
  cases h with
  | parked hnext hwaits => exact .stirred hnext hwaits
  | between hrest hpaid => exact .between hrest hpaid
  | toWake hnext => exact .toWake hnext
  | waking hnext hrest => exact .waking hnext hrest
  | waiting hnext hwaits hrest => exact .waiting hnext hwaits hrest
  | stirred hnext hwaits => exact .stirred hnext hwaits

/-- Who owes a notice is on the way to it. -/
theorem Placed.isToNotify {s : Stance} (h : Placed i log s) (howes : OwesNotice i log) :
    s.isToNotify = true := by
  cases h with
  | between _ hpaid => exact absurd howes hpaid
  | toWake => rfl
  | waking _ hrest =>
    cases hrest with
    | toLock | toNotify => rfl
    | toUnlock hpaid | finished hpaid => exact absurd howes hpaid
  | waiting _ hwaits | parked _ hwaits | stirred _ hwaits => exact absurd howes hwaits.paid

/-- A comparison finds the identity that was stored last. A wait answers what the party found in its
    last comparison. A party parks in a wait only, and only if what it waits for was not outdated
    when the wait began. -/
def Occurrence.IsSound : Occurrence ι → List (Occurrence ι) → Prop
  | .compared _ _ found, earlier => ∀ made, lastStored? earlier = some made → found = made.id
  | .ended i (.await id) answer, earlier =>
    ∃ found, lastCompared? i earlier = some (id, found) ∧ answer = (found != id)
  | .parked i, earlier =>
    ∃ id before, lastTurning i earlier = .began i (.await id) :: before ∧ ¬ IsOutdated i id before
  | _, _ => True

end

/-! ### Turns -/

namespace Lobby

variable {ι σ : Type} [DecidableEq ι]

theorem placed_move {l : Lobby ι σ} {i : ι} {log : List (Occurrence ι)} {s : Stance}
    (h : Placed i log s) : Placed i log ((l.move i s).stances i) := by
  rwa [stances_move_self]

variable [PinDriver σ] {l l' : Lobby ι σ} {i : ι}

/-- How a wait goes on after a comparison: who has found the identity in the first one parks, and
    then it was not outdated before. -/
theorem waiting_of_compares (hl : l.IsReachable) {id id' : Nat} {before : List (Occurrence ι)}
    {rest : Bool → Watch Bool} (hwaits : Waits i id before l.log)
    (h : Waiting i id before l.log (.ask (.differs id') rest)) :
    id' = id ∧ Waiting i id before (.compared i id' l.world.active.id :: l.log)
      (rest (l.world.active.id != id')) := by
  cases h with
  | toLook =>
    refine ⟨rfl, ?_⟩
    by_cases hsame : l.world.active.id = id
    · have hcurrent : ¬ IsOutdated i id before := fun hbefore =>
        hl.ne_of_isOutdated (hwaits.isOutdated hbefore) hsame
      rw [bne_eq_false_iff_eq.2 hsame]
      exact .toPark hcurrent
    · rw [bne_iff_ne.2 hsame]
      exact .toLookAgain
  | toLookAgain =>
    have hfound : lastCompared? i (.compared i id l.world.active.id :: l.log) =
        some (id, l.world.active.id) := by
      simp [lastCompared?, Occurrence.compared?]
    exact ⟨rfl, .toUnlock hfound⟩

/-- A turn brings the party from one place to the next. -/
theorem Step.placed (h : Step l i l') (hl : l.IsReachable) (hi : Placed i l.log (l.stances i)) :
    Placed i l'.log (l'.stances i) := by
  cases h with
  | begins hs hd =>
    rw [hs] at hi
    cases hi with
    | between _ hpaid => exact placed_move (.between hd hpaid)
  | acts hs ha hpublish =>
    rw [hs] at hi
    cases hi with
    | between hrest hpaid =>
      cases hrest with
      | publish => cases hpublish
      | other _ hnext => exact placed_move (.between (hnext _) hpaid)
    | toWake => cases ha
  | drops hs =>
    show Placed i _ (l.stances i)
    rw [hs] at hi ⊢
    cases hi with
    | between hrest hpaid => exact .between hrest hpaid
    | toWake hnext => exact .toWake hnext
  | stores hs hid =>
    rw [hs] at hi
    cases hi with
    | between hrest hpaid =>
      cases hrest with
      | publish hnext => exact placed_move (.toWake hnext)
      | other hpublish => cases hpublish
  | @enters a next d hs ha =>
    rw [hs] at hi
    cases hi with
    | toWake hnext =>
      cases ha
      exact placed_move (.waking hnext .toLock)
    | between hrest hpaid =>
      cases hrest with
      | publish => cases ha
      | other _ hnext =>
        cases a with
        | wake =>
          cases ha
          exact placed_move (.waking (hnext ()) .toLock)
        | await id =>
          cases ha
          have hwaits : Waits i id l.log (.began i (.await id) :: l.log) :=
            ⟨lastTurning_of_isTurning (decide_eq_true rfl), hpaid⟩
          exact placed_move (.waiting hnext hwaits .toLock)
        | load | publish | isClosing | close | bank | sleep | yield | report => cases ha
  | locks hs hfree =>
    rw [hs] at hi
    cases hi with
    | waking hnext hrest =>
      cases hrest with
      | toLock => exact placed_move (.waking hnext .toNotify)
    | waiting hnext hwaits hrest =>
      cases hrest with
      | toLock => exact placed_move (.waiting hnext hwaits .toLook)
  | unlocks hs =>
    rw [hs] at hi
    cases hi with
    | waking hnext hrest =>
      cases hrest with
      | toUnlock hpaid => exact placed_move (.waking hnext (.finished hpaid))
    | waiting hnext hwaits hrest =>
      cases hrest with
      | toUnlock hfound => exact placed_move (.waiting hnext hwaits (.finished hfound))
  | compares hs =>
    rw [hs] at hi
    cases hi with
    | waking hnext hrest => cases hrest
    | waiting hnext hwaits hrest =>
      obtain ⟨rfl, hrest⟩ := waiting_of_compares hl hwaits hrest
      exact placed_move (.waiting hnext (hwaits.cons rfl rfl) hrest)
  | notifies hs =>
    rw [hs] at hi
    cases hi with
    | waking hnext hrest =>
      cases hrest with
      | toNotify =>
        have hpaid : ¬ OwesNotice i (.notified i :: l.log) := by
          simp [OwesNotice, Occurrence.owes?]
        exact placed_move (.waking hnext (.toUnlock hpaid))
    | waiting hnext hwaits hrest => cases hrest
  | parks hs =>
    rw [hs] at hi
    cases hi with
    | waking hnext hrest => cases hrest
    | waiting hnext hwaits hrest =>
      cases hrest with
      | toPark hcurrent => exact placed_move (.parked hnext (hwaits.cons rfl rfl))
  | expires hs =>
    rw [hs] at hi
    cases hi with
    | parked hnext hwaits => exact placed_move (.stirred hnext hwaits)
  | relocks hs hfree =>
    rw [hs] at hi
    cases hi with
    | stirred hnext hwaits => exact placed_move (.waiting hnext hwaits .toLookAgain)
  | leaves hs =>
    rw [hs] at hi
    cases hi with
    | waking hnext hrest =>
      cases hrest with
      | finished hpaid => exact placed_move (.between hnext hpaid)
    | waiting hnext hwaits hrest =>
      cases hrest with
      | finished hfound => exact placed_move (.between (hnext _) hwaits.paid)

/-- Everyone in a lobby is at one of the places. -/
theorem IsReachable.placed (h : l.IsReachable) (i : ι) : Placed i l.log (l.stances i) := by
  induction h with
  | start world => exact .between (.done ()) nofun
  | @step l l' j hl hstep ih =>
    by_cases hij : i = j
    · subst hij
      exact hstep.placed hl ih
    · -- another party does not move this one, unless it stirs it
      have hstays : Placed i l.log (l'.stances i) := by
        rcases hstep.stances_of_ne hij with hsame | hstirred
        · rwa [hsame]
        · rw [hstirred]
          exact ih.stir
      rcases hstep.log_eq with hlog | ⟨o, hwho, hlog⟩
      · rwa [hlog]
      · rw [hlog]
        exact hstays.cons fun ho => hij (ho.symm.trans hwho)

/-! ### The log -/

theorem Step.isSound (h : Step l i l') (hl : l.IsReachable) {o : Occurrence ι}
    (ho : l'.log = o :: l.log) : o.IsSound l.log := by
  have hi : Placed i l.log (l.stances i) := hl.placed i
  cases h with
  | begins | locks | unlocks | expires | relocks => exact absurd ho.symm (List.cons_ne_self o l.log)
  | acts | drops | stores | enters | notifies =>
    obtain rfl := (List.cons.inj ho).1
    trivial
  | compares hs =>
    obtain rfl := (List.cons.inj ho).1
    intro made hmade
    rw [hl.active_eq_of_stored hmade]
  | parks hs =>
    obtain rfl := (List.cons.inj ho).1
    rw [hs] at hi
    cases hi with
    | waking _ hrest => cases hrest
    | waiting _ hwaits hrest =>
      cases hrest with
      | toPark hcurrent => exact ⟨_, _, hwaits.began, hcurrent⟩
  | leaves hs =>
    obtain rfl := (List.cons.inj ho).1
    rw [hs] at hi
    cases hi with
    | waking => trivial
    | waiting _ _ hrest =>
      cases hrest with
      | finished hfound => exact ⟨_, hfound, rfl⟩

/-- Every occurrence in the log is sound. -/
theorem IsReachable.isSound (h : l.IsReachable) {o : Occurrence ι} {earlier : List (Occurrence ι)}
    (ho : o :: earlier <:+ l.log) : o.IsSound earlier := by
  induction h with
  | start world => cases List.suffix_nil.1 ho
  | @step l l' j hl hstep ih =>
    rcases hstep.log_eq with hlog | ⟨o', _, hlog⟩
    · rw [hlog] at ho
      exact ih ho
    · rw [hlog] at ho
      rcases List.suffix_cons_iff.1 ho with heq | hbefore
      · obtain ⟨rfl, rfl⟩ := List.cons.inj heq
        exact hstep.isSound hl hlog
      · exact ih hbefore

end Lobby

end LedSequencer
