import LedSequencer.Proofs.Handling
import LedSequencer.Proofs.Levels

/-! # Replacement of a pattern

  A line switches all pins off before its sequence becomes active, and the two are
  separate actions. A player that has looked before the publication and drives a pin
  high after the sweep leaves a *stale* level behind. Once the player plays the new
  sequence, stale levels are the only ones that the new sequence does not account for
  (`low_iff_not_stale`), and there are runs that have them (`high_after_late`).
-/

namespace LedSequencer

/-! ### Levels -/

/-- A step that has not looked since the last publication has driven a pin high, and since then
    the player has not driven it low, nor has the session switched the pins off. -/
def Stale (pin : Pin) (since : List (Entry Chair)) : Prop :=
  ∃ a b reply, since = a ++ .did .player (.bank (.set pin .high)) reply :: b ∧
    (∀ a₁ s a₂ active, a = a₁ ++ publication s :: a₂ → .did .player .load active ∉ a₂) ∧
    (∀ reply, .did .player (.bank (.set pin .low)) reply ∉ b) ∧
    ∀ pins, .did .session (.bank (.allOff pins)) () ∉ b

namespace Ensemble

/-- The last line that a session has begun was accepted, and since then the player has begun a step
    and ended it. `since` is the log since the line began. -/
structure Replaced {σ : Type} (e : Ensemble Chair σ) (past since : List (Entry Chair)) : Prop where
  began : ∃ text, e.log = past ++ .began .session (.line text) :: since
  latest : ∀ entry ∈ since, entry.isLine = false
  stepped : ∃ x s y z outcome,
    since = x ++ .ended .session (.handled (.ok ()) s) :: (y ++ .began .player .step :: z) ∧
      .ended .player outcome ∈ z

/-- What the log holds since a line began by which a sequence has replaced another. -/
structure Installs (map : ChannelMap) (since : List (Entry Chair)) (s : Sequence) : Prop where
  /-- Nothing else was published. -/
  publishes : ∀ who t reply, .did who (.publish t) reply ∈ since → t = s
  /-- Single pins were driven by the player only. -/
  drives : ∀ who pin level reply, .did who (.bank (.set pin level)) reply ∈ since → who = .player
  /-- Pins were switched off by the sweep only. -/
  sweeps : ∀ who pins reply, .did who (.bank (.allOff pins)) reply ∈ since →
    who = .session ∧ pins = map.pins
  /-- All pins were switched off. -/
  swept : sweep map ∈ since
  /-- The player has looked after the publication. -/
  looked : ∃ u v active, since = u ++ publication s :: v ∧ .did .player .load active ∈ v

/-- A player that is at a sequence is at the active one. -/
theorem AccountsFor.active_eq {ι σ : Type} {e : Ensemble ι σ} {i : ι} {p : Player} {a : Account}
    {s : Sequence} (h : e.AccountsFor i p a) (ha : a.IsAt s) : e.world.active.sequence = s := by
  obtain ⟨hsequence, hnews⟩ := ha
  have hbehind := h.isBehind
  cases ht : a.news with
  | none =>
    rw [ht] at hbehind
    have hheld : p.held = e.world.active := hbehind
    rw [← hheld, ← h.sequence_eq, hsequence]
  | some t =>
    rw [ht] at hbehind
    rw [hbehind.1, hnews t ht]

variable {σ : Type} [PinDriver σ] {map : ChannelMap} {driver : σ}
variable {schedule : List (Chair × Move)} {past since : List (Entry Chair)} {pin : Pin}
variable {s : Sequence}

/-- A step that began and ended has looked in between. -/
theorem exists_look_of_stepped {e : Ensemble Chair σ} {schedule : List (Chair × Move)}
    {x z : List (Entry Chair)} {outcome : Outcome}
    (hlog : (e.play map schedule).log = e.log ++ (x ++ .began .player .step :: z))
    (hended : .ended .player outcome ∈ z) : ∃ active, .did .player .load active ∈ z := by
  obtain ⟨before, who, m, after, hschedule, hbefore, hturn⟩ := exists_turn_of_log hlog
  rw [hschedule, play_append, play_cons] at hlog
  have hnow := hturn.log_eq
  generalize e.play map before = e₁ at hlog hbefore hturn hnow
  generalize e₁.turn map who m = e₂ at hlog hturn hnow
  have hrest : (e₂.play map after).log = e₂.log ++ z := by
    rw [hlog, hnow, hbefore]
    simp
  cases hturn with
  | began order activity horder =>
    cases hparty : e₁.parties .player with
    | player p =>
      rw [hparty] at horder
      cases horder
      exact exists_look_of_ended (parties_record_self) hrest hended
    | session | installer | closer | newcomer | busy =>
      rw [hparty] at horder
      cases horder

/-- By a line that was accepted a sequence has replaced another. -/
theorem Replaced.installs (h : Replaced ((duet map driver).play map schedule) past since) :
    ∃ (text : String) (led : Nat) (compiled : Compiled), compile text map led = .ok compiled ∧
      Installs map since compiled.sequence := by
  obtain ⟨⟨text, hlog⟩, hlatest, x, s', y, z, outcome, hsplit, hended⟩ := h
  obtain ⟨session, e, after, hmap, hplay, he, hhandles⟩ := exists_handles hlog
  subst hmap
  rw [hplay] at hlog
  have hsince : (e.play session.map after).log = e.log ++ since := by
    rw [hlog, he, List.append_assoc]
    rfl
  -- everything since the line began is regular
  obtain ⟨since', hsince', hregular⟩ := (hhandles after).log
  rw [← he] at hsince'
  have hsame : since' = since := List.append_cancel_left (hsince'.symm.trans hsince)
  subst hsame
  rcases hregular with ⟨line, hmem, hline⟩ | ⟨hregular, _⟩
  · rw [hlatest line hmem] at hline
    cases hline
  -- when the line was accepted, the sequence had been published
  have hreturn : (e.play session.map after).log = e.log ++
      (x ++ .ended .session (.handled (.ok ()) s') :: (y ++ .began .player .step :: z)) := by
    rw [hsince, hsplit]
  obtain ⟨before, who, m, _, _, hbefore, hturn⟩ := exists_turn_of_log hreturn
  rw [he] at hbefore
  have hx : ∀ entry ∈ x, entry.isLine = false := fun entry hmem =>
    hlatest entry (hsplit ▸ List.mem_append_left _ hmem)
  obtain ⟨compiled, hcompiled, hsweep, hpublication⟩ :=
    (hhandles before).accepted hbefore hx hturn
  -- the step began after that
  have hstepped : (e.play session.map after).log = e.log ++
      ((x ++ .ended .session (.handled (.ok ()) s') :: y) ++ .began .player .step :: z) := by
    rw [hreturn, List.append_assoc, List.cons_append]
  obtain ⟨active, hlook⟩ := exists_look_of_stepped hstepped hended
  refine ⟨text, session.led, compiled, hcompiled, ?_, ?_, ?_, ?_, ?_⟩
  · intro who t reply hentry
    obtain ⟨compiled', hcompiled', ht⟩ := (hregular _ hentry).publish
    rw [hcompiled] at hcompiled'
    cases hcompiled'
    exact ht
  · intro who pin level reply hentry
    exact (hregular _ hentry).drive
  · intro who pins reply hentry
    exact (hregular _ hentry).sweep
  · rw [hsplit]
    exact List.mem_append_left _ hsweep
  · obtain ⟨u, v, huv⟩ := List.append_of_mem hpublication
    refine ⟨u, v ++ .ended .session (.handled (.ok ()) s') :: (y ++ .began .player .step :: z),
      active, ?_, ?_⟩
    · rw [hsplit, huv, List.append_assoc]
      rfl
    · refine List.mem_append_right _ (List.mem_cons_of_mem _ (List.mem_append_right _ ?_))
      exact List.mem_cons_of_mem _ hlook

/-- Since a sequence was published and the player has looked, it is the one that is played. -/
theorem Installs.isAt (h : Installs map since s) (base : List (Entry Chair))
    {u v w : List (Entry Chair)} {t : Sequence} {active : Published}
    (hsplit : since = u ++ publication t :: (v ++ w)) (hlook : .did .player .load active ∈ v) :
    t = s ∧ (Account.ofLog .player .idle (base ++ (u ++ publication t :: v))).IsAt s := by
  have ht : t = s := by
    apply h.publishes .session t ()
    rw [hsplit]
    exact List.mem_append_right u List.mem_cons_self
  subst ht
  have hlog : base ++ (u ++ publication t :: v) =
      (base ++ u) ++ .did .session (.publish t) () :: v := by
    rw [List.append_assoc]
    rfl
  refine ⟨rfl, Account.isAt_ofLog hlog hlook ?_⟩
  intro who t' reply hentry
  apply h.publishes who t' reply
  rw [hsplit]
  exact List.mem_append_right u (List.mem_cons_of_mem _ (List.mem_append_left w hentry))

/-- What a player writes high is in the sequence it is at. -/
theorem on_mem_of_get {k : Nat} (h : (s.get k).transition = some (pin, .high)) :
    .on pin ∈ s.body := by
  rcases s.get_mem_or_eq k with hmem | hrewind
  · cases hop : s.get k with
    | on p =>
      rw [hop] at h hmem
      cases h
      exact hmem
    | off p | pause length | rewind =>
      rw [hop] at h
      cases h
  · rw [hrewind] at h
    cases h

variable {base : List (Entry Chair)}

theorem lastWrite?_duet (map : ChannelMap) (hdriver : IsReliable driver)
    (schedule : List (Chair × Move)) (pin : Pin) :
    let e := (duet map driver).play map schedule
    Attempt.lastWrite? pin e.world.calls =
      (e.log.filterMap (Entry.drive? pin)).getLast?.map fun level => (level, none) := by
  refine lastWrite?_sequencer hdriver (fun i => ?_) schedule pin
  cases i <;> exact Role.noConfusion

/-- What the player drives high once it has looked after the publication is on in the new
    sequence. -/
theorem Installs.on_mem_of_driven (h : Installs map since s)
    (hlog : ((duet map driver).play map schedule).log = base ++ since)
    {u v w : List (Entry Chair)} {t : Sequence} {active : Published}
    {reply : Action.Reply (.bank (.set pin .high))}
    (hsplit : since = (u ++ publication t :: v) ++ .did .player (.bank (.set pin .high)) reply :: w)
    (hlook : .did .player .load active ∈ v) : .on pin ∈ s.body := by
  have hsplit' : since =
      u ++ publication t :: (v ++ .did .player (.bank (.set pin .high)) reply :: w) := by
    rw [hsplit, List.append_assoc]
    rfl
  obtain ⟨rfl, hat⟩ := h.isAt base hsplit' hlook
  have hdriven : ((duet map driver).play map schedule).log =
      (base ++ (u ++ publication t :: v)) ++
        .did .player (.bank (.set pin .high)) reply :: w := by
    rw [hlog, hsplit, List.append_assoc base]
  rw [duet_eq_withPlayer] at hdriven
  obtain ⟨k, hk⟩ := exists_get_of_driven hdriven
  have hsequence : (Account.ofLog .player (World.start driver).active.sequence
      (base ++ (u ++ publication t :: v))).sequence = t := hat.1
  rw [hsequence] at hk
  exact on_mem_of_get hk

/-- After a replacement, a pin that the new sequence never switches on is low, or its level is
    stale. -/
theorem Installs.low_or_stale (h : Installs map since s) (hdriver : IsReliable driver)
    (hlog : ((duet map driver).play map schedule).log = base ++ since) (hpin : pin ∈ map.pins)
    (hoff : .on pin ∉ s.body) :
    Attempt.lastWrite? pin ((duet map driver).play map schedule).world.calls = some (.low, none) ∨
      Stale pin since := by
  have hlevel := lastWrite?_duet map hdriver schedule pin
  simp only at hlevel
  rw [hlog, List.filterMap_append, List.getLast?_append] at hlevel
  -- the sweep is one action on the pin, so there is a last one
  have hsweep : Level.low ∈ since.filterMap (Entry.drive? pin) := by
    apply List.mem_filterMap.2
    exact ⟨sweep map, h.swept, if_pos hpin⟩
  cases hlast : (since.filterMap (Entry.drive? pin)).getLast? with
  | none =>
    rw [List.getLast?_eq_none_iff.1 hlast] at hsweep
    cases hsweep
  | some level =>
    rw [hlast] at hlevel
    cases level with
    | low => exact .inl hlevel
    | high =>
      obtain ⟨a, entry, b, hsplit, hentry, hnone⟩ := exists_last_of_getLast?_filterMap hlast
      obtain ⟨who, reply, rfl⟩ := Entry.eq_of_drive?_high hentry
      have hwho : who = .player := by
        apply h.drives who pin .high reply
        rw [hsplit]
        exact List.mem_append_right a List.mem_cons_self
      subst hwho
      -- had the player looked before, the new sequence would switch the pin on
      refine .inr ⟨a, b, reply, hsplit, ?_, ?_, ?_⟩
      · rintro u t v active rfl hlook
        exact hoff (h.on_mem_of_driven hlog hsplit hlook)
      · intro reply' hlow
        have hdrive := hnone _ hlow
        simp [Entry.drive?, Action.drive?] at hdrive
      · intro pins hoffs
        have hmem : .did .session (.bank (.allOff pins)) () ∈ since := by
          rw [hsplit]
          exact List.mem_append_right a (List.mem_cons_of_mem _ hoffs)
        obtain ⟨_, rfl⟩ := h.sweeps .session pins () hmem
        have hdrive := hnone _ hoffs
        simp [Entry.drive?, Action.drive?, hpin] at hdrive

/-- A stale level is high. -/
theorem Installs.high_of_stale (h : Installs map since s) (hdriver : IsReliable driver)
    (hlog : ((duet map driver).play map schedule).log = base ++ since) (hstale : Stale pin since) :
    Attempt.lastWrite? pin ((duet map driver).play map schedule).world.calls =
      some (.high, none) := by
  obtain ⟨a, b, reply, hsplit, _, hlow, hoffs⟩ := hstale
  have hmem : ∀ entry ∈ b, entry ∈ since := by
    intro entry hentry
    rw [hsplit]
    exact List.mem_append_right a (List.mem_cons_of_mem _ hentry)
  -- nothing later tells the pin to be low
  have hhigh : ∀ level ∈ Level.high :: b.filterMap (Entry.drive? pin), level = .high := by
    intro level hlevel
    rcases List.mem_cons.1 hlevel with heq | hlevel
    · exact heq
    obtain ⟨entry, hentry, hdrive⟩ := List.mem_filterMap.1 hlevel
    cases level with
    | high => rfl
    | low =>
      exfalso
      rcases Entry.eq_of_drive? hdrive with ⟨who, reply', rfl⟩ | ⟨_, who, pins, reply', rfl⟩
      · obtain rfl := h.drives who pin .low reply' (hmem _ hentry)
        exact hlow reply' hentry
      · obtain ⟨rfl, _⟩ := h.sweeps who pins reply' (hmem _ hentry)
        exact hoffs pins hentry
  have hlevel := lastWrite?_duet map hdriver schedule pin
  simp only at hlevel
  have hdrive : (Entry.did Chair.player (.bank (.set pin .high)) reply).drive? pin = some .high :=
    if_pos rfl
  rw [hlog, hsplit, List.filterMap_append, List.filterMap_append, List.filterMap_cons_some hdrive,
    List.getLast?_append, List.getLast?_append] at hlevel
  cases hlast : (Level.high :: b.filterMap (Entry.drive? pin)).getLast? with
  | none => cases List.getLast?_eq_none_iff.1 hlast
  | some level =>
    rw [hlast, hhigh level (List.mem_of_getLast? hlast)] at hlevel
    exact hlevel

/-- The player alone. -/
def alone (moves : List Move) : List (Chair × Move) := moves.map fun m => (.player, m)

/-- A replacement stays one while the player plays alone. -/
theorem Replaced.play_alone {e : Ensemble Chair σ} (h : Replaced e past since)
    (moves : List Move) : ∃ more, (e.play map (alone moves)).log = e.log ++ more ∧
      Replaced (e.play map (alone moves)) past (since ++ more) := by
  obtain ⟨more, hmore⟩ := exists_log_play map e (alone moves)
  obtain ⟨⟨text, hlog⟩, hlatest, x, s', y, z, outcome, hsplit, hended⟩ := h
  refine ⟨more, hmore, ⟨text, ?_⟩, fun entry hentry => ?_, x, s', y, z ++ more, outcome, ?_, ?_⟩
  · rw [hmore, hlog, List.append_assoc, List.cons_append]
  · rcases List.mem_append.1 hentry with hold | hnew
    · exact hlatest entry hold
    · obtain ⟨m₁, m₂, rfl⟩ := List.append_of_mem hnew
      obtain ⟨before, who, m, after, hschedule, _, hturn⟩ := exists_turn_of_log hmore
      have hturns : (who, m) ∈ alone moves := by
        rw [hschedule]
        exact List.mem_append_right before List.mem_cons_self
      obtain ⟨m', _, heq⟩ := List.mem_map.1 hturns
      have hplayer : who = .player := (congrArg Prod.fst heq).symm
      exact Entry.isLine_of_who (hturn.who_eq.trans hplayer)
  · rw [hsplit]
    simp
  · exact List.mem_append_left more hended

/-- After a line has been accepted and the player has begun and ended a step since then, a pin that
    the new sequence never switches on is low, and stays low while the player plays on, unless its
    level is stale. -/
theorem low_iff_not_stale (map : ChannelMap) {driver : σ} (hdriver : IsReliable driver)
    (schedule : List (Chair × Move)) {past since : List (Entry Chair)}
    (h : Replaced ((duet map driver).play map schedule) past since) {pin : Pin}
    (hpin : pin ∈ map.pins)
    (hoff : .on pin ∉ ((duet map driver).play map schedule).world.active.sequence.body) :
    (∀ moves : List Move, Attempt.lastWrite? pin
      (((duet map driver).play map schedule).play map (alone moves)).world.calls =
        some (.low, none)) ↔ ¬ Stale pin since := by
  obtain ⟨_, _, compiled, _, hinstalls⟩ := h.installs
  obtain ⟨text, hlog⟩ := h.began
  have hbase : ((duet map driver).play map schedule).log =
      (past ++ [.began .session (.line text)]) ++ since := by
    rw [hlog, List.append_assoc]
    rfl
  -- the player is at the new sequence, so that is the active one
  obtain ⟨u, v, active, hsince, hlook⟩ := hinstalls.looked
  obtain ⟨p, haccount⟩ := exists_accountsFor_duet map driver schedule
  have hat : (Account.ofLog .player .idle
      ((past ++ [.began .session (.line text)]) ++ since)).IsAt compiled.sequence := by
    have hsplit : since = u ++ publication compiled.sequence :: (v ++ []) := by
      rw [List.append_nil, hsince]
    rw [hsince]
    exact (hinstalls.isAt _ hsplit hlook).2
  rw [hbase] at haccount
  rw [haccount.active_eq hat] at hoff
  constructor
  · intro hlow hstale
    have hhigh := hinstalls.high_of_stale hdriver hbase hstale
    have hnow := hlow []
    rw [alone, List.map_nil, play_nil, hhigh] at hnow
    cases hnow
  · intro hfresh moves
    obtain ⟨more, hmore, hstill⟩ := h.play_alone moves
    rw [← play_append] at hmore hstill ⊢
    obtain ⟨_, _, compiled', _, hinstalls'⟩ := hstill.installs
    -- it is still the same sequence
    have hsame : compiled.sequence = compiled'.sequence := by
      apply hinstalls'.publishes .session compiled.sequence ()
      rw [hsince, List.append_assoc]
      exact List.mem_append_right u List.mem_cons_self
    rw [← hsame] at hinstalls'
    rw [hbase, List.append_assoc] at hmore
    rcases hinstalls'.low_or_stale hdriver hmore hpin hoff with hlow | hstale
    · exact hlow
    exfalso
    obtain ⟨a, b, reply, hsplit, hunseen, hlows, hoffs⟩ := hstale
    rcases List.append_eq_append_iff.1 hsplit with ⟨a', ha, _⟩ | ⟨c, hc, hrest⟩
    · -- the player has looked before it came to what it did alone
      refine hunseen u compiled.sequence (v ++ a') active ?_ (List.mem_append_left a' hlook)
      rw [ha, hsince, List.append_assoc]
      rfl
    · cases c with
      | nil =>
        refine hunseen u compiled.sequence v active ?_ hlook
        rw [← hsince, hc, List.append_nil]
      | cons entry c =>
        -- the stale level was there before the player was alone
        obtain ⟨hentry, hb⟩ := List.cons.inj hrest
        refine hfresh ⟨a, c, reply, by rw [hc, hentry], hunseen, ?_, ?_⟩
        · intro reply' hmem
          exact hlows reply' (hb ▸ List.mem_append_left more hmem)
        · intro pins hmem
          exact hoffs pins (hb ▸ List.mem_append_left more hmem)

/-- Turns of one party in a row. -/
def turns (who : Chair) (count : Nat) : List (Chair × Move) := List.replicate count (who, .proceed)

/-- A line switches the pin of `single` on and the player does so, a blank line follows, and the
    player takes one more step. -/
def calm : List (Chair × Move) :=
  (.session, .begin (.line "R")) :: turns .session 5 ++
    (.player, .begin .step) :: turns .player 4 ++
    (.session, .begin (.line "")) :: turns .session 5 ++
    (.player, .begin .step) :: turns .player 3

theorem low_iff_not_stale_calm :
    let e := (duet single Hardware.nothing).play single calm
    IsReliable Hardware.nothing ∧ Replaced e (e.log.take 11) (e.log.drop 12) ∧
      ⟨1⟩ ∈ single.pins ∧ .on ⟨1⟩ ∉ e.world.active.sequence.body ∧
      ∀ moves, Attempt.lastWrite? ⟨1⟩ (e.play single (alone moves)).world.calls =
        some (.low, none) := by
  intro e
  have hreliable := isReliable_nothing
  have hreplaced : Replaced e (e.log.take 11) (e.log.drop 12) := by
    refine ⟨⟨"", by decide +kernel⟩, by decide +kernel, (e.log.drop 12).take 4, ⟨single, 0⟩, [],
      (e.log.drop 12).drop 6, .stepped .rewind ⟨⟨2, .idle⟩, 0⟩, ?_, ?_⟩
    · decide +kernel
    · decide +kernel
  have hpin : ⟨1⟩ ∈ single.pins := by decide
  have hoff : .on ⟨1⟩ ∉ e.world.active.sequence.body := by decide +kernel
  refine ⟨hreliable, hreplaced, hpin, hoff, ?_⟩
  refine (low_iff_not_stale single hreliable calm hreplaced hpin hoff).2 ?_
  -- since the blank line began, the player has driven nothing
  have hnone : ∀ entry ∈ e.log.drop 12, entry.drive? ⟨1⟩ ≠ some .high := by decide +kernel
  rintro ⟨a, b, reply, hsplit, _⟩
  refine hnone (.did .player (.bank (.set ⟨1⟩ .high)) reply) ?_ rfl
  rw [hsplit]
  exact List.mem_append_right a List.mem_cons_self

/-- As `calm`, but the step of the player looks before the blank line begins, and drives the pin
    between the sweep and the publication. -/
def late : List (Chair × Move) :=
  (.session, .begin (.line "R")) :: turns .session 5 ++
    (.player, .begin .step) :: turns .player 1 ++
    (.session, .begin (.line "")) :: turns .session 1 ++ turns .player 3 ++ turns .session 4 ++
    (.player, .begin .step) :: turns .player 3

/-- After a blank line, and a step of the player since then, the pin is still high. -/
theorem high_after_late :
    let e := (duet single Hardware.nothing).play single late
    IsReliable Hardware.nothing ∧ Replaced e (e.log.take 8) (e.log.drop 9) ∧
      ⟨1⟩ ∈ single.pins ∧ .on ⟨1⟩ ∉ e.world.active.sequence.body ∧
      Attempt.lastWrite? ⟨1⟩ e.world.calls = some (.high, none) := by
  intro e
  refine ⟨isReliable_nothing, ?_, by decide, by decide +kernel, by decide +kernel⟩
  refine ⟨⟨"", by decide +kernel⟩, by decide +kernel, (e.log.drop 9).take 7, ⟨single, 0⟩, [],
    (e.log.drop 9).drop 9, .stepped .rewind ⟨⟨2, .idle⟩, 0⟩, ?_, ?_⟩
  · decide +kernel
  · decide +kernel

end Ensemble

end LedSequencer
