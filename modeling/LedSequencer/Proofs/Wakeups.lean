import LedSequencer.Proofs.Places

/-! # No lost wakeups

  The active sequence is replaced without the lock under which others wait for that, so a
  party can find the old sequence, and park after it has been replaced. It is not left
  alone: whoever has replaced the sequence has yet to take the lock and to stir everyone
  (`wakeups_not_lost`).

  * **The lock**: whoever is inside has it.
  * **Wakeups**: who sinks has found the active identity, or somebody owes a notice.
-/

namespace LedSequencer

namespace Stance

/-- The identity that a party has found active, when it is parked or is about to park for that. -/
def sinks? : Stance → Option Nat
  | .amid (.await id) (.ask .park _) _ => some id
  | .parked (.await id) _ _ => some id
  | _ => none

theorem isInside_stir (s : Stance) : s.stir.isInside = s.isInside := by
  cases s <;> rfl

/-- Who is about to park has the lock. -/
theorem isInside_of_sinks_stir {s : Stance} {id : Nat} (h : s.stir.sinks? = some id) :
    s.isInside = true := by
  cases s with
  | busy | parked | stirred => cases h
  | amid a rest next =>
    cases rest with
    | done => cases a <;> cases h
    | ask q rest =>
      cases q with
      | lock => cases a <;> cases h
      | unlock | notifyAll | park | differs => rfl

end Stance

namespace Lobby

variable {ι σ : Type} [DecidableEq ι] [PinDriver σ] {l l' : Lobby ι σ} {i : ι}

/-! ### The lock -/

/-- A turn takes the lock or gives it back, or has nothing to do with it. -/
theorem Step.owner_cases (h : Step l i l') (hi : Placed i l.log (l.stances i)) :
    (l'.owner = l.owner ∧ (l'.stances i).isInside = (l.stances i).isInside) ∨
      (l.owner = none ∧ l'.owner = some i ∧ (l'.stances i).isInside = true) ∨
      ((l.stances i).isInside = true ∧ l'.owner = none ∧ (l'.stances i).isInside = false) := by
  have hmove : ∀ {l : Lobby ι σ} {s : Stance} {b : Bool}, s.isInside = b →
      ((l.move i s).stances i).isInside = b := by
    intro l s b hs
    rwa [stances_move_self]
  cases h with
  | begins hs | acts hs | stores hs =>
    rw [hs]
    exact .inl ⟨rfl, hmove rfl⟩
  | drops => exact .inl ⟨rfl, rfl⟩
  | @enters a _ _ hs ha =>
    rw [hs]
    cases a with
    | wake | await =>
      cases ha
      exact .inl ⟨rfl, hmove rfl⟩
    | load | publish | isClosing | close | bank | sleep | yield | report => cases ha
  | locks hs hfree =>
    refine .inr (.inl ⟨hfree, rfl, hmove ?_⟩)
    rw [hs] at hi
    cases hi with
    | waking _ hrest | waiting _ _ hrest =>
      cases hrest
      rfl
  | unlocks hs =>
    refine .inr (.inr ⟨by rw [hs]; rfl, rfl, hmove ?_⟩)
    rw [hs] at hi
    cases hi with
    | waking _ hrest | waiting _ _ hrest =>
      cases hrest
      rfl
  | compares hs =>
    refine .inl ⟨rfl, hmove ?_⟩
    rw [hs] at hi ⊢
    cases hi with
    | waking _ hrest => cases hrest
    | waiting _ _ hrest =>
      cases hrest with
      | toLookAgain => rfl
      | toLook =>
        generalize (l.world.active.id != _) = differs
        cases differs <;> rfl
  | notifies hs =>
    refine .inl ⟨rfl, hmove ?_⟩
    rw [hs] at hi ⊢
    cases hi with
    | waking _ hrest =>
      cases hrest
      rfl
    | waiting _ _ hrest => cases hrest
  | parks hs => exact .inr (.inr ⟨by rw [hs]; rfl, rfl, hmove rfl⟩)
  | expires hs =>
    rw [hs]
    exact .inl ⟨rfl, hmove rfl⟩
  | relocks hs hfree =>
    refine .inr (.inl ⟨hfree, rfl, hmove ?_⟩)
    rw [hs] at hi
    cases hi
    rfl
  | leaves hs =>
    rw [hs]
    exact .inl ⟨rfl, hmove rfl⟩

/-- **Mutual exclusion.** The lock is with whoever is inside. -/
theorem IsReachable.owner_eq_some_iff (h : l.IsReachable) (i : ι) :
    l.owner = some i ↔ (l.stances i).isInside = true := by
  induction h generalizing i with
  | start world => exact ⟨nofun, nofun⟩
  | @step l l' j hl hstep ih =>
    have hothers : ∀ i ≠ j, (l'.stances i).isInside = (l.stances i).isInside := by
      intro i hij
      rcases hstep.stances_of_ne hij with hsame | hstirred
      · rw [hsame]
      · rw [hstirred, Stance.isInside_stir]
    rcases hstep.owner_cases (hl.placed j) with ⟨howner, hself⟩ | ⟨hfree, htaken, hself⟩ |
      ⟨hinside, hgiven, hself⟩
    · have hall : (l'.stances i).isInside = (l.stances i).isInside := by
        by_cases hij : i = j
        · rw [hij, hself]
        · exact hothers i hij
      rw [howner, hall]
      exact ih i
    · by_cases hij : i = j
      · rw [hij, htaken, hself]
        exact ⟨fun _ => rfl, fun _ => rfl⟩
      · rw [hothers i hij, ← ih i, htaken, hfree]
        exact ⟨fun heq => absurd (Option.some.inj heq).symm hij, nofun⟩
    · by_cases hij : i = j
      · rw [hij, hgiven, hself]
        exact ⟨nofun, nofun⟩
      · -- the lock was with the one who gives it back
        rw [hothers i hij, ← ih i, hgiven, (ih j).2 hinside]
        exact ⟨nofun, fun heq => absurd (Option.some.inj heq).symm hij⟩

/-! ### Wakeups -/

/-- Who is parked, or is about to, was so before, or has just found the active identity. -/
theorem Step.sinks_cases (h : Step l i l') (hi : Placed i l.log (l.stances i)) {id : Nat}
    (hsinks : (l'.stances i).sinks? = some id) :
    (l.stances i).sinks? = some id ∨ l.world.active.id = id := by
  have hmove : ∀ {l : Lobby ι σ} {s : Stance}, ((l.move i s).stances i).sinks? = some id →
      s.sinks? = some id := by
    intro l s hs
    rwa [stances_move_self] at hs
  cases h with
  | begins | acts | stores | leaves => cases hmove hsinks
  | drops => exact .inl hsinks
  | @enters a _ _ hs ha =>
    cases a with
    | wake | await =>
      cases ha
      cases hmove hsinks
    | load | publish | isClosing | close | bank | sleep | yield | report => cases ha
  | locks hs | unlocks hs =>
    rw [hs] at hi
    cases hi with
    | waking _ hrest | waiting _ _ hrest =>
      cases hrest
      cases hmove hsinks
  | compares hs =>
    rw [hs] at hi
    cases hi with
    | waking _ hrest => cases hrest
    | waiting _ _ hrest =>
      cases hrest with
      | toLookAgain => cases hmove hsinks
      | toLook =>
        generalize hdiffers : (l.world.active.id != _) = differs at hsinks
        cases differs with
        | true => cases hmove hsinks
        | false =>
          cases hmove hsinks
          exact .inr (bne_eq_false_iff_eq.1 hdiffers)
  | notifies hs =>
    rw [hs] at hi
    cases hi with
    | waking _ hrest =>
      cases hrest
      cases hmove hsinks
    | waiting _ _ hrest => cases hrest
  | parks hs =>
    rw [hs] at hi ⊢
    cases hi with
    | waking _ hrest => cases hrest
    | waiting _ _ hrest =>
      cases hrest
      have hid := hmove hsinks
      exact .inl hid
  | expires => cases hmove hsinks
  | relocks hs =>
    rw [hs] at hi
    cases hi
    cases hmove hsinks

/-- What the active sequence and the notices owed become with a turn: a party that stores owes one,
    a party that has the lock stirs everyone, and any other turn leaves them as they are. -/
theorem Step.notice_cases (h : Step l i l') (hi : Placed i l.log (l.stances i)) :
    OwesNotice i l'.log ∨
      ((l.stances i).isInside = true ∧ (l'.stances i).sinks? = none ∧
        ∀ j ≠ i, l'.stances j = (l.stances j).stir) ∨
      (l'.world.active = l.world.active ∧ (∀ j, OwesNotice j l.log → OwesNotice j l'.log) ∧
        ∀ j ≠ i, l'.stances j = l.stances j) := by
  cases h with
  | stores =>
    left
    simp [OwesNotice, Occurrence.owes?]
  | notifies hs =>
    refine .inr (.inl ⟨by rw [hs]; rfl, ?_, fun j hj => stances_move_of_ne hj _⟩)
    show ((l.stir.move i _).stances i).sinks? = none
    rw [stances_move_self]
    rw [hs] at hi
    cases hi with
    | waking _ hrest => rfl
    | waiting _ _ hrest => cases hrest
  | acts hs ha hpublish =>
    have hactive := World.active_act_of_not_isPublish hpublish l.world
    exact .inr (.inr ⟨hactive, fun _ howes => howes, fun j hj => stances_move_of_ne hj _⟩)
  | drops => exact .inr (.inr ⟨rfl, fun _ howes => howes, fun _ _ => rfl⟩)
  | begins | enters | locks | unlocks | compares | parks | expires | relocks | leaves =>
    exact .inr (.inr ⟨rfl, fun _ howes => howes, fun j hj => stances_move_of_ne hj _⟩)

/-- Who is parked, or is about to, is so for the active identity, unless somebody owes a notice. -/
theorem IsReachable.active_or_owesNotice (h : l.IsReachable) {i : ι} {id : Nat}
    (hsinks : (l.stances i).sinks? = some id) :
    l.world.active.id = id ∨ ∃ j, OwesNotice j l.log := by
  induction h with
  | start world => cases hsinks
  | @step l l' j hl hstep ih =>
    rcases hstep.notice_cases (hl.placed j) with howes | ⟨hinside, hself, hothers⟩ |
      ⟨hactive, howes, hothers⟩
    · exact .inr ⟨j, howes⟩
    · -- nobody is about to park while another one has the lock
      by_cases hij : i = j
      · rw [hij, hself] at hsinks
        cases hsinks
      · rw [hothers i hij] at hsinks
        have hi := (hl.owner_eq_some_iff i).2 (Stance.isInside_of_sinks_stir hsinks)
        have hj := (hl.owner_eq_some_iff j).2 hinside
        exact absurd (Option.some.inj (hi.symm.trans hj)) hij
    · have hbefore : (l.stances i).sinks? = some id ∨ l.world.active.id = id := by
        by_cases hij : i = j
        · subst hij
          exact hstep.sinks_cases (hl.placed i) hsinks
        · rw [hothers i hij] at hsinks
          exact .inl hsinks
      rw [hactive]
      rcases hbefore with hsunk | hfound
      · exact (ih hsunk).imp_right fun ⟨k, hk⟩ => ⟨k, howes k hk⟩
      · exact .inl hfound

/-- **No lost wakeup.** Any number of parties carry out prompt activities on a shared state, and
    their turns come in any order. Whenever a party is parked, and not stirred, while another
    identity is active than the one it has found, some party has made a sequence active, has not
    stirred anyone since, and is about to. A wait answers whether the identity that it found in its
    last comparison is another one, and a comparison finds the identity that was made active last.
    And a party does not park in a wait for the identity that it has in hand, when another sequence
    was made active after it took that identity up and before the wait began. -/
theorem wakeups_not_lost (h : l.IsReachable) :
    (∀ i id rest next, l.stances i = .parked (.await id) rest next → l.world.active.id ≠ id →
      ∃ j, OwesNotice j l.log ∧ (l.stances j).isToNotify = true) ∧
    (∀ i id answer earlier, .ended i (.await id) answer :: earlier <:+ l.log →
      ∃ found, lastCompared? i earlier = some (id, found) ∧ (answer = true ↔ found ≠ id)) ∧
    (∀ i id found earlier made, .compared i id found :: earlier <:+ l.log →
      lastStored? earlier = some made → found = made.id) ∧
    (∀ i id since before, since ++ .began i (.await id) :: before <:+ l.log →
      (∀ o ∈ since, o.isTurning i = false) → IsOutdated i id before → .parked i ∉ since) := by
  refine ⟨?_, ?_, ?_, ?_⟩
  · intro i id rest next hi hid
    have hsinks : (l.stances i).sinks? = some id := by
      rw [hi]
      rfl
    obtain ⟨j, howes⟩ := (h.active_or_owesNotice hsinks).resolve_left hid
    exact ⟨j, howes, (h.placed j).isToNotify howes⟩
  · intro i id answer earlier hended
    obtain ⟨found, hfound, hanswer⟩ := h.isSound hended
    exact ⟨found, hfound, by rw [hanswer, bne_iff_ne]⟩
  · intro i id found earlier made hcompared
    exact h.isSound hcompared made
  · intro i id since before hwait hsince houtdated hparked
    obtain ⟨after, during, rfl⟩ := List.append_of_mem hparked
    have hsuffix : .parked i :: (during ++ .began i (.await id) :: before) <:+ l.log := by
      refine List.IsSuffix.trans ?_ hwait
      rw [List.append_assoc]
      exact List.suffix_append ..
    -- the wait in which it parks is this one
    obtain ⟨id', before', hbegan, hcurrent⟩ := h.isSound hsuffix
    have hduring : ∀ o ∈ during, o.isTurning i = false := fun o ho =>
      hsince o (List.mem_append_right _ (List.mem_cons_of_mem _ ho))
    have hturning : (Occurrence.began i (.await id)).isTurning i = true := decide_eq_true rfl
    rw [lastTurning_append hduring, lastTurning_of_isTurning hturning] at hbegan
    cases hbegan
    exact hcurrent houtdated

/-- One party takes up the active sequence and waits twice for another one. In its first wait it
    finds the old one, the other party makes an equal one active, and the first one parks. It is
    stirred, and does not park in its second wait. -/
theorem wakeups_not_lost_renewed :
    ∃ l l' : Lobby Bool Hardware, l.IsReachable ∧ l'.IsReachable ∧ l.world.active.id ≠ 0 ∧
      (∃ rest next, l.stances false = .parked (.await 0) rest next) ∧
      (∃ j, OwesNotice j l.log ∧ (l.stances j).isToNotify = true) ∧
      (∃ earlier, .ended false (.await 0) true :: earlier <:+ l'.log ∧
        ∃ found, lastCompared? false earlier = some (0, found) ∧ found ≠ 0) ∧
      (∃ found earlier, .compared false 0 found :: earlier <:+ l'.log ∧ found = 7) ∧
      ∃ since before, since ++ .began false (.await 0) :: before <:+ l'.log ∧
        IsOutdated false 0 before ∧ .parked false ∉ since := by
  let waiter : Activity Unit := do
    let active ← Activity.load
    let _ ← Activity.await active.id
    let _ ← Activity.await active.id
    pure ()
  have hwaiter : waiter.IsPrompt :=
    .other rfl fun _ => .other rfl fun _ => .other rfl fun _ => .done ()
  have h : (Lobby.start (World.start Hardware.nothing) : Lobby Bool Hardware).IsReachable :=
    .start _
  have h := h.step (.begins (i := false) rfl hwaiter)
  have h := h.step (.acts (i := false) rfl rfl rfl)
  have h := h.step (.enters (i := false) rfl rfl)
  have h := h.step (.locks (i := false) rfl rfl)
  have h := h.step (.compares (i := false) rfl)
  have h := h.step (.begins (i := true) rfl (Activity.isPrompt_install .idle))
  have h := h.step (.acts (i := true) rfl rfl rfl)
  have h := h.step (.stores (i := true) rfl (show Lobby.IsFresh _ 7 from ⟨by decide, by decide⟩))
  have hparked := h.step (.parks (i := false) rfl)
  -- it is parked, and the other party is yet to stir it
  have h := hparked.step (.enters (i := true) rfl rfl)
  have h := h.step (.locks (i := true) rfl rfl)
  have h := h.step (.notifies (i := true) rfl)
  have h := h.step (.unlocks (i := true) rfl)
  have h := h.step (.relocks (i := false) rfl rfl)
  have h := h.step (.compares (i := false) rfl)
  have h := h.step (.unlocks (i := false) rfl)
  have h := h.step (.leaves (i := false) rfl)
  -- the second wait
  have h := h.step (.enters (i := false) rfl rfl)
  have h := h.step (.locks (i := false) rfl rfl)
  have h := h.step (.compares (i := false) rfl)
  have h := h.step (.compares (i := false) rfl)
  have h := h.step (.unlocks (i := false) rfl)
  obtain ⟨hnotice, _, _, _⟩ := wakeups_not_lost hparked
  obtain ⟨_, hanswers, hfinds, hwaits⟩ := wakeups_not_lost h
  refine ⟨_, _, hparked, h, by decide, ⟨_, _, rfl⟩, hnotice false 0 _ _ rfl (by decide), ?_, ?_, ?_⟩
  · have hended := hanswers false 0 true _ ⟨[_, _, _], rfl⟩
    obtain ⟨found, hfound, htrue⟩ := hended
    exact ⟨_, ⟨[_, _, _], rfl⟩, found, hfound, htrue.1 rfl⟩
  · exact ⟨_, _, ⟨[], rfl⟩, hfinds false 0 _ _ _ ⟨[], rfl⟩ rfl⟩
  · have hsince : ∀ o ∈ [Occurrence.compared false 0 7, .compared false 0 7],
        o.isTurning false = false := by decide
    have hwait := hwaits false 0 _ _ ⟨[], rfl⟩ hsince ⟨rfl, rfl⟩
    exact ⟨_, _, ⟨[], rfl⟩, ⟨rfl, rfl⟩, hwait⟩

end Lobby

end LedSequencer
