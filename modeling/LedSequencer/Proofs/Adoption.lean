import LedSequencer.Proofs.Accounts
import LedSequencer.Proofs.Activities
import LedSequencer.Proofs.Outputs
import LedSequencer.Proofs.Pushes

/-! # Adoption of new sequences

  Sequences can be made active by anyone at any time, and a player takes the latest one
  up when it next looks. What a player returns splits into stretches, one for each
  sequence that it has taken up, and in each stretch that sequence is played from its
  first operation, over and over.

  * **Rounds**: what a player has played of the sequence it holds.
  * **Stances**: where a party that plays stands in its step.
  * **The invariant**: the account is right about the player, in every order of turns.
-/

namespace LedSequencer

/-! ### Rounds -/

namespace Sequence

/-- A place is reached by playing a sequence for some rounds and then up to that place. -/
def Reaches (s : Sequence) (played : List Operation) (place : Nat) : Prop :=
  ∃ rounds, played = (List.replicate rounds s.operations).flatten ++ s.operations.take place

/-- What was played is the beginning of endless repetition. -/
theorem Reaches.prefix_rounds {s : Sequence} {played : List Operation} {place : Nat}
    (h : s.Reaches played place) :
    ∃ rounds, played <+: (List.replicate rounds s.operations).flatten := by
  obtain ⟨rounds, rfl⟩ := h
  refine ⟨rounds + 1, ?_⟩
  rw [List.replicate_succ', List.flatten_append, List.flatten_singleton]
  exact (List.prefix_append_right_inj _).2 (List.take_prefix place s.operations)

/-- Within the sequence, an operation is read where it stands. -/
theorem getElem?_operations {s : Sequence} {i : Nat} (h : i < s.length) :
    s.operations[i]? = some (s.get i) := by
  rw [get_eq_getD, List.getElem?_eq_getElem (by rwa [length_operations])]
  rfl

/-- Within the sequence, only the last place rewinds. -/
theorem get_eq_rewind_iff {s : Sequence} {i : Nat} (h : i < s.length) :
    s.get i = .rewind ↔ i + 1 = s.length := by
  rw [get_eq_rewind_iff_le]
  omega

end Sequence

namespace Player

variable {p : Player} {played : List Operation}

theorem cursor_advance_lt (h : p.cursor < p.held.sequence.length) :
    p.advance.cursor < p.held.sequence.length := by
  by_cases hnext : p.next = .rewind
  · rw [advance_of_rewind hnext]
    exact p.held.sequence.length_pos
  · rw [advance_of_ne hnext]
    have hlast := mt (Sequence.get_eq_rewind_iff h).2 hnext
    show p.cursor + 1 < p.held.sequence.length
    omega

/-- A step plays on from the place that was reached. -/
theorem reaches_advance (h : p.cursor < p.held.sequence.length)
    (hreaches : p.held.sequence.Reaches played p.cursor) :
    p.held.sequence.Reaches (played ++ [p.next]) p.advance.cursor := by
  obtain ⟨rounds, rfl⟩ := hreaches
  have htake : p.held.sequence.operations.take p.cursor ++ [p.next] =
      p.held.sequence.operations.take (p.cursor + 1) := by
    rw [List.take_add_one, Sequence.getElem?_operations h]
    rfl
  by_cases hnext : p.next = .rewind
  · -- the round is complete
    have hlast : p.cursor + 1 = p.held.sequence.operations.length := by
      rw [Sequence.length_operations]
      exact (Sequence.get_eq_rewind_iff h).1 hnext
    refine ⟨rounds + 1, ?_⟩
    rw [List.append_assoc, htake, hlast, List.take_length, advance_of_rewind hnext,
      List.replicate_succ', List.flatten_append, List.flatten_singleton, List.take_zero,
      List.append_nil]
  · refine ⟨rounds, ?_⟩
    rw [List.append_assoc, htake, advance_of_ne hnext]

end Player

/-! ### Stances -/

/-- The conduct of a player that has looked and carries an operation out: it drives what the
    operation says and does not look again. -/
def playing (op : Operation) : Conduct Action Action.Reply where
  allows
    | .bank (.set pin level) => op.transition = some (pin, level)
    | a => a.isPassing = true
  expects _ _ := True

theorem playing_lenient (op : Operation) : (playing op).Lenient := by
  intro a ha
  cases a with
  | wake | sleep | yield | report => exact ha
  | load | publish | await | isClosing | close | bank => cases ha

/-- What is left of a step of a player that has looked. -/
def Activity.ofLook (p : Player) : Activity Outcome := do
  let stepped ← p.goOn
  pure (.stepped stepped.1 stepped.2)

theorem Activity.ofStep_eq (p : Player) :
    Activity.ofStep p = .ask .load fun active => Activity.ofLook (p.adopt active) := rfl

theorem Activity.follows_ofLook (p : Player) :
    (ofLook p).Follows (playing p.next) fun outcome => outcome = .stepped p.next p.advance := by
  refine (Player.follows_goOn (playing_lenient p.next) fun pin level ht => ht).bind ?_
  rintro stepped rfl
  rfl

/-- Where a party stands that plays as a given player: between two steps, before it looks, or in
    the middle of a step after it has looked. -/
inductive Party.PlaysAs (p : Player) : Party → Prop where
  | resting : PlaysAs p (.player p)
  | begun : PlaysAs p (.busy (.ofStep p))
  | looked (rest : Activity Outcome)
      (h : rest.Follows (playing p.next) fun outcome => outcome = .stepped p.next p.advance) :
      PlaysAs p (.busy rest)

theorem Order.activity_player {map : ChannelMap} {order : Order} {p : Player}
    {activity : Activity Outcome} (h : order.activity map (.player p) = some activity) :
    activity = .ofStep p := by
  cases order <;> cases h
  rfl

/-- A party that plays asks for nothing but the active sequence and what its next operation says. -/
theorem Party.PlaysAs.asks {p : Player} {a : Action} {next : a.Reply → Activity Outcome}
    (h : PlaysAs p (.busy (.ask a next))) : a = .load ∨ (playing p.next).allows a := by
  generalize hparty : Party.busy (.ask a next) = party at h
  cases h with
  | resting => cases hparty
  | begun =>
    rw [Activity.ofStep_eq] at hparty
    cases hparty
    exact .inl rfl
  | looked rest hrest =>
    cases hparty
    exact .inr hrest.1

/-- What a player holds, compared with the active sequence: it is the same, or there is news. -/
def Published.IsBehind (held active : Published) : Option Sequence → Prop
  | none => held = active
  | some s => active.sequence = s ∧ held.id < active.id

namespace Published

variable {held active : Published} {news : Option Sequence}

theorem IsBehind.id_le (h : held.IsBehind active news) : held.id ≤ active.id := by
  cases news with
  | none => exact Nat.le_of_eq (congrArg Published.id h)
  | some s => exact Nat.le_of_lt h.2

/-- A publication is news, even of a sequence with the same operations. -/
theorem IsBehind.publish (h : held.IsBehind active news) (s : Sequence) :
    held.IsBehind (active.next s) (some s) :=
  ⟨rfl, Nat.lt_succ_of_le h.id_le⟩

end Published

/-! ### The invariant -/

namespace Ensemble

variable {ι σ : Type}

/-- An account is right about a party: the party plays as `p`, has reached the place of `p` in the
    sequence it holds, and knows of every sequence but the one that is news. -/
structure AccountsFor (i : ι) (e : Ensemble ι σ) (p : Player) (a : Account) : Prop where
  stance : (e.parties i).PlaysAs p
  sequence_eq : a.sequence = p.held.sequence
  cursor_lt : p.cursor < p.held.sequence.length
  reaches : p.held.sequence.Reaches a.played p.cursor
  past : ∀ stretch ∈ a.past, ∃ rounds,
    stretch.2 <+: (List.replicate rounds stretch.1.operations).flatten
  isBehind : p.held.IsBehind e.world.active a.news

variable {e e' : Ensemble ι σ} {i who : ι} {p : Player} {a : Account}

/-- An account stays right while the party plays as the same player and the active sequence stays
    the same. -/
theorem AccountsFor.keep (h : e.AccountsFor i p a) (hstance : (e'.parties i).PlaysAs p)
    (hactive : e'.world.active = e.world.active) : e'.AccountsFor i p a := by
  refine ⟨hstance, h.sequence_eq, h.cursor_lt, h.reaches, h.past, ?_⟩
  rw [hactive]
  exact h.isBehind

variable [DecidableEq ι] {map : ChannelMap}

theorem AccountsFor.begin (h : e.AccountsFor i p a) {order : Order} {activity : Activity Outcome}
    (horder : order.activity map (e.parties i) = some activity) :
    (e.record e.world i (.busy activity) (.began i order)).AccountsFor i p a := by
  have hstance := h.stance
  -- a party in the middle of a step takes no orders
  generalize hparty : e.parties i = party at hstance horder
  cases hstance with
  | resting =>
    rw [Order.activity_player horder]
    refine h.keep ?_ rfl
    rw [parties_record_self]
    exact .begun
  | begun => exact absurd rfl (Order.ne_busy horder _)
  | looked rest _ => exact absurd rfl (Order.ne_busy horder rest)

/-- A player that looks takes the news up, if there is any. -/
theorem AccountsFor.look (h : e.AccountsFor i p a) {reply : Published}
    (hreply : reply = e.world.active) :
    (e.record e.world i (.busy (.ofLook (p.adopt reply))) (.did i .load reply)).AccountsFor i
      (p.adopt reply) a.look := by
  subst hreply
  have hstance := Activity.follows_ofLook (p.adopt e.world.active)
  have hbehind := h.isBehind
  unfold Account.look
  cases hnews : a.news with
  | none =>
    -- the player plays on
    rw [hnews] at hbehind
    have hadopt : p.adopt e.world.active = p :=
      Player.adopt_of_eq (congrArg Published.id hbehind.symm)
    rw [hadopt] at hstance ⊢
    refine h.keep ?_ rfl
    rw [parties_record_self]
    exact .looked _ hstance
  | some s =>
    -- a stretch ends, and another one begins with nothing played
    rw [hnews] at hbehind
    obtain ⟨hactive, hid⟩ := hbehind
    have hadopt : p.adopt e.world.active = .start e.world.active :=
      Player.adopt_of_ne (Nat.ne_of_gt hid)
    rw [hadopt] at hstance ⊢
    refine ⟨?_, hactive.symm, Sequence.length_pos _, ⟨0, rfl⟩, ?_, rfl⟩
    · rw [parties_record_self]
      exact .looked _ hstance
    · intro stretch hstretch
      rcases List.mem_append.1 hstretch with hpast | hlast
      · exact h.past stretch hpast
      · rw [List.mem_singleton.1 hlast, h.sequence_eq]
        exact h.reaches.prefix_rounds

/-- A step that returns has played one more operation. -/
theorem AccountsFor.finish (h : e.AccountsFor i p a) :
    (e.record e.world i (.player p.advance) (.ended i (.stepped p.next p.advance))).AccountsFor i
      p.advance (a.add i (.ended i (.stepped p.next p.advance))) := by
  have hadd : a.add i (.ended i (.stepped p.next p.advance)) =
      { a with played := a.played ++ [p.next] } := if_pos rfl
  rw [hadd]
  have hheld := p.held_advance
  refine ⟨?_, ?_, ?_, ?_, h.past, ?_⟩
  · rw [parties_record_self]
    exact .resting
  · rw [hheld]
    exact h.sequence_eq
  · rw [hheld]
    exact Player.cursor_advance_lt h.cursor_lt
  · rw [hheld]
    exact Player.reaches_advance h.cursor_lt h.reaches
  · rw [hheld]
    exact h.isBehind

variable [PinDriver σ] {entry : Entry ι}

/-- What others do is no news to a player but for publications. -/
theorem Happens.accountsFor_of_ne (hstep : Happens map e who entry e') (hi : i ≠ who)
    (h : e.AccountsFor i p a) : e'.AccountsFor i p (a.add i entry) := by
  have hstance : (e'.parties i).PlaysAs p := by
    rw [hstep.parties_of_ne hi]
    exact h.stance
  cases hstep with
  | began order activity horder => exact h.keep hstance rfl
  | ended outcome hbusy =>
    have hadd : a.add i (.ended who outcome) = a := by
      cases outcome with
      | stepped op p => exact if_neg (Ne.symm hi)
      | handled | installed | closed | entered => rfl
    rw [hadd]
    exact h.keep hstance rfl
  | did action next hbusy =>
    cases action with
    | publish s =>
      exact ⟨hstance, h.sequence_eq, h.cursor_lt, h.reaches, h.past, h.isBehind.publish s⟩
    | load =>
      have hadd : a.add i (.did who .load e.world.active) = a := if_neg (Ne.symm hi)
      show AccountsFor i _ p (a.add i (.did who .load e.world.active))
      rw [hadd]
      exact h.keep hstance rfl
    | bank op => exact h.keep hstance (World.active_act (.bank op) e.world)
    | wake | await | isClosing | close | sleep | yield | report => exact h.keep hstance rfl

/-- Whatever a player does after it has looked, it plays on as the same one. -/
theorem AccountsFor.goOn (h : e.AccountsFor i p a) {action : Action}
    {next : action.Reply → Activity Outcome}
    (hrest : (Dialogue.ask action next).Follows (playing p.next) fun outcome =>
      outcome = .stepped p.next p.advance) :
    (e.record (e.world.act action).2 i (.busy (next (e.world.act action).1))
      (.did i action (e.world.act action).1)).AccountsFor i p
        (a.add i (.did i action (e.world.act action).1)) := by
  obtain ⟨hallows, hnext⟩ := hrest
  have hlooked := Party.PlaysAs.looked _ (hnext (e.world.act action).1 trivial)
  have hactive := World.active_act action e.world
  cases action with
  | load | publish | await | isClosing | close => cases hallows
  | bank | wake | sleep | yield | report =>
    refine h.keep ?_ hactive
    rw [parties_record_self]
    exact hlooked

/-- In its own turns a player plays on from the place it has reached. -/
theorem Happens.accountsFor_self (hstep : Happens map e i entry e') (h : e.AccountsFor i p a) :
    ∃ p', e'.AccountsFor i p' (a.add i entry) := by
  have hstance := h.stance
  cases hstep with
  | began order activity horder => exact ⟨p, h.begin horder⟩
  | did action next hbusy =>
    rw [hbusy] at hstance
    generalize hparty : Party.busy (.ask action next) = party at hstance
    cases hstance with
    | resting => cases hparty
    | begun =>
      rw [Activity.ofStep_eq] at hparty
      cases hparty
      have hadd : a.add i (.did i .load e.world.active) = a.look := if_pos rfl
      refine ⟨p.adopt e.world.active, ?_⟩
      show AccountsFor i _ _ (a.add i (.did i .load e.world.active))
      rw [hadd]
      exact h.look rfl
    | looked rest hrest =>
      cases hparty
      exact ⟨p, h.goOn hrest⟩
  | ended outcome hbusy =>
    rw [hbusy] at hstance
    generalize hparty : Party.busy (.done outcome) = party at hstance
    cases hstance with
    | resting => cases hparty
    | begun =>
      rw [Activity.ofStep_eq] at hparty
      cases hparty
    | looked rest hrest =>
      cases hparty
      have houtcome : outcome = .stepped p.next p.advance := hrest
      subst houtcome
      exact ⟨p.advance, h.finish⟩

/-- An account stays right with every entry that is added to the log. -/
theorem Happens.accountsFor (hstep : Happens map e who entry e') (h : e.AccountsFor i p a) :
    ∃ p', e'.AccountsFor i p' (a.add i entry) := by
  by_cases hi : i = who
  · subst hi
    exact hstep.accountsFor_self h
  · exact ⟨p, hstep.accountsFor_of_ne hi h⟩

/-- A player of whatever is active joins parties that stand anywhere. -/
def withPlayer (world : World σ) (parties : ι → Party) (i : ι) : Ensemble ι σ :=
  .start world (Function.update parties i (.player (.start world.active)))

theorem exists_accountsFor_play (map : ChannelMap) (world : World σ) (parties : ι → Party) (i : ι)
    (schedule : List (ι × Move)) :
    let e := (withPlayer world parties i).play map schedule
    ∃ p, e.AccountsFor i p (.ofLog i world.active.sequence e.log) := by
  refine play_induction (P := fun e => ∃ p, e.AccountsFor i p
    (.ofLog i world.active.sequence e.log)) ?_ ?_ schedule
  · rintro e₁ who entry e₂ ⟨p, h⟩ hstep
    rw [hstep.log_eq, Account.ofLog_append_singleton]
    exact hstep.accountsFor h
  · refine ⟨.start world.active, ?_, rfl, Sequence.length_pos _, ⟨0, rfl⟩, ?_, rfl⟩
    · simp only [withPlayer, start, Function.update_self]
      exact .resting
    · intro stretch hstretch
      cases hstretch

/-- A player drives a pin only as some operation of the sequence says that it has taken up last. -/
theorem exists_get_of_driven {map : ChannelMap} {world : World σ} {parties : ι → Party}
    {schedule : List (ι × Move)} {x y : List (Entry ι)} {pin : Pin} {level : Level}
    {reply : Action.Reply (.bank (.set pin level))}
    (hlog : ((withPlayer world parties i).play map schedule).log =
      x ++ .did i (.bank (.set pin level)) reply :: y) :
    ∃ k, ((Account.ofLog i world.active.sequence x).sequence.get k).transition =
      some (pin, level) := by
  obtain ⟨before, who, m, _, _, hbefore, hturn⟩ := exists_turn_of_log hlog
  obtain ⟨p, h⟩ := exists_accountsFor_play map world parties i before
  have hx : ((withPlayer world parties i).play map before).log = x := hbefore
  rw [hx] at h
  have hstance := h.stance
  rw [h.sequence_eq]
  generalize (withPlayer world parties i).play map before = e₁ at hturn hstance
  generalize e₁.turn map who m = e₂ at hturn
  cases hturn with
  | did _ next hbusy =>
    rw [hbusy] at hstance
    rcases hstance.asks with hload | hallows
    · cases hload
    · exact ⟨p.cursor, hallows⟩

/-- Since the log was `base`, a step that had just begun has looked, or has done nothing yet. -/
def LooksFirst (i : ι) (p : Player) (base : List (Entry ι)) (e : Ensemble ι σ) : Prop :=
  ∃ more, e.log = base ++ more ∧
    ((∃ active, .did i .load active ∈ more) ∨
      (∀ outcome, .ended i outcome ∉ more) ∧ e.parties i = .busy (.ofStep p))

theorem Happens.looksFirst {base : List (Entry ι)} (hstep : Happens map e who entry e')
    (h : e.LooksFirst i p base) : e'.LooksFirst i p base := by
  obtain ⟨more, hlog, hmore⟩ := h
  refine ⟨more ++ [entry], by rw [hstep.log_eq, hlog, List.append_assoc], ?_⟩
  rcases hmore with ⟨active, hlook⟩ | ⟨hnone, hbusy⟩
  · exact .inl ⟨active, List.mem_append_left _ hlook⟩
  by_cases hi : i = who
  · subst hi
    -- the one thing that the party can do now is to look
    cases hstep with
    | began order activity horder => exact absurd hbusy (Order.ne_busy horder _)
    | ended outcome hdone =>
      rw [hdone, Activity.ofStep_eq] at hbusy
      cases hbusy
    | did action next hask =>
      rw [hask, Activity.ofStep_eq] at hbusy
      cases hbusy
      exact .inl ⟨_, List.mem_append_right _ (List.mem_singleton.2 rfl)⟩
  · have hsame : e'.parties i = .busy (.ofStep p) := by rw [hstep.parties_of_ne hi, hbusy]
    refine .inr ⟨?_, hsame⟩
    intro outcome hmem
    rcases List.mem_append.1 hmem with hold | hnew
    · exact hnone outcome hold
    · have hwho := hstep.who_eq
      rw [← List.mem_singleton.1 hnew] at hwho
      exact hi hwho

/-- A step that has ended has looked at the active sequence since it began. -/
theorem exists_look_of_ended (hbegun : e.parties i = .busy (.ofStep p))
    {schedule : List (ι × Move)} {more : List (Entry ι)}
    (hlog : (e.play map schedule).log = e.log ++ more) {outcome : Outcome}
    (hended : .ended i outcome ∈ more) : ∃ active, .did i .load active ∈ more := by
  have hstart : e.LooksFirst i p e.log :=
    ⟨[], (List.append_nil e.log).symm, .inr ⟨fun _ => List.not_mem_nil, hbegun⟩⟩
  obtain ⟨more', hlog', hmore'⟩ := play_induction (P := fun e' => e'.LooksFirst i p e.log)
    (fun _ _ _ _ h hstep => hstep.looksFirst h) hstart schedule
  obtain rfl : more' = more := List.append_cancel_left (hlog'.symm.trans hlog)
  rcases hmore' with hlook | ⟨hnone, _⟩
  · exact hlook
  · exact absurd hended (hnone outcome)

/-- In every order of turns, what a player returns splits into stretches, one for each sequence it
    has taken up, and each is the beginning of that sequence played over and over. Whenever the
    player looks, it takes up the sequence that was made active last, if one was since it last
    looked, and otherwise plays on. The operation it plays is always within the sequence it
    holds. -/
theorem play_never_torn (map : ChannelMap) (world : World σ) (parties : ι → Party) (i : ι)
    (schedule : List (ι × Move)) :
    let e := (withPlayer world parties i).play map schedule
    let a := Account.ofLog i world.active.sequence e.log
    e.log.filterMap (Entry.returned? i) = a.stretches.flatMap Prod.snd ∧
      (∀ stretch ∈ a.stretches, ∃ rounds,
        stretch.2 <+: (List.replicate rounds stretch.1.operations).flatten) ∧
      ∃ p, (e.parties i).PlaysAs p ∧ p.held.sequence = a.sequence ∧
        p.cursor < p.held.sequence.length ∧
        p.held.sequence.operations[p.cursor]? = some p.next ∧
        (p.held.sequence.isEmpty = true → p.cursor = 0) ∧
        match a.news with
        | none => p.adopt e.world.active = p
        | some s => e.world.active.sequence = s ∧ p.held.id ≠ e.world.active.id ∧
            p.adopt e.world.active = .start e.world.active := by
  intro e a
  obtain ⟨p, h⟩ : ∃ p, e.AccountsFor i p a := exists_accountsFor_play map world parties i schedule
  refine ⟨(Account.flatMap_stretches_ofLog i _ _).symm, ?_, p, h.stance, h.sequence_eq.symm,
    h.cursor_lt, Sequence.getElem?_operations h.cursor_lt, ?_, ?_⟩
  · intro stretch hstretch
    rcases List.mem_append.1 hstretch with hpast | hlast
    · exact h.past stretch hpast
    · rw [List.mem_singleton.1 hlast, h.sequence_eq]
      exact h.reaches.prefix_rounds
  · intro hempty
    have hle : p.held.sequence.length ≤ 1 := of_decide_eq_true hempty
    have hlt := h.cursor_lt
    omega
  · have hbehind := h.isBehind
    cases hnews : a.news with
    | none =>
      rw [hnews] at hbehind
      exact Player.adopt_of_eq (congrArg Published.id hbehind.symm)
    | some s =>
      rw [hnews] at hbehind
      obtain ⟨hactive, hid⟩ := hbehind
      exact ⟨hactive, Nat.ne_of_lt hid, Player.adopt_of_ne (Nat.ne_of_gt hid)⟩

end Ensemble

end LedSequencer
