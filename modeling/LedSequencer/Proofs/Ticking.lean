import LedSequencer.Proofs.Cues

/-! # The ticks of play

  A player that always has something to play makes its clock tick again and again: at
  every operation of a static sequence, and at the pauses of any other one, of which
  there is at least one in each round through the sequence. So play comes to the tick at
  which the sequencer is told to close, and ends there (`play_stops_at_close`).

  * **Transcripts**: what a run asks.
  * **Distance**: how far a player is from the next tick.
  * **Operations**: what a player does in one round of its loop.
  * **Stretches**: what it does up to the next tick.
-/

namespace LedSequencer

/-! ### Transcripts -/

namespace Dialogue

variable {Q : Type} {R : Q → Type} {α β σ : Type}

/-- The questions that a run of a dialogue asks, in order. -/
def asked (reply : (q : Q) → σ → R q × σ) : Dialogue Q R α → σ → List Q
  | .done _, _ => []
  | .ask q next, s => q :: (next (reply q s).1).asked reply (reply q s).2

theorem asked_bind (reply : (q : Q) → σ → R q × σ) (d : Dialogue Q R α) (f : α → Dialogue Q R β)
    (s : σ) : (d >>= f).asked reply s =
      d.asked reply s ++ (f (d.run reply s).1).asked reply (d.run reply s).2 := by
  induction d generalizing s with
  | done a => rfl
  | ask q next ih =>
    rw [bind_ask, asked, ih, asked]
    rfl

end Dialogue

/-! ### Distance -/

namespace Player

/-- Whether the next operation makes the clock tick. -/
def ticks (p : Player) : Bool := p.held.sequence.isStatic || p.next.isPause

variable {p : Player}

theorem held_iterate_advance (p : Player) (i : Nat) : (advance^[i] p).held = p.held := by
  induction i with
  | zero => rfl
  | succ i ih => rw [Function.iterate_succ_apply', held_advance, ih]

/-- A player goes round and round through its sequence. -/
theorem cursor_iterate_advance (h : p.cursor < p.held.sequence.length) (i : Nat) :
    (advance^[i] p).cursor = (p.cursor + i) % p.held.sequence.length := by
  induction i with
  | zero => exact (Nat.mod_eq_of_lt h).symm
  | succ i ih =>
    have hheld := p.held_iterate_advance i
    have hlt : (advance^[i] p).cursor < (advance^[i] p).held.sequence.length := by
      rw [ih, hheld]
      exact Nat.mod_lt _ p.held.sequence.length_pos
    rw [Function.iterate_succ_apply', cursor_advance hlt, ih, hheld, Nat.mod_add_mod, Nat.add_assoc]

/-- The clock ticks at one of the next 1000 operations. -/
theorem exists_ticks (h : p.cursor < p.held.sequence.length) :
    ∃ i ≤ 999, (advance^[i] p).ticks = true := by
  have hlength : p.held.sequence.length ≤ 1000 := p.held.sequence.length_le
  cases hstatic : p.held.sequence.isStatic with
  | true => exact ⟨0, by omega, by simp [ticks, hstatic]⟩
  | false =>
    -- something in the sequence waits
    have hpause : ¬ ∀ op ∈ p.held.sequence.body.toList, op.isPause = false := by
      rw [← Sequence.isStatic_iff, hstatic]
      exact Bool.false_ne_true
    simp only [not_forall, Bool.not_eq_false] at hpause
    obtain ⟨op, hop, hop_pause⟩ := hpause
    obtain ⟨j, hj, hjop⟩ := List.mem_iff_getElem.1 hop
    have hjlt : j < p.held.sequence.body.size := by rwa [Array.length_toList] at hj
    have hlength_eq : p.held.sequence.length = p.held.sequence.body.size + 1 := rfl
    -- the player comes there, at the latest after one more `rewind`
    let i := (j + (p.held.sequence.length - p.cursor)) % p.held.sequence.length
    have hi : i < p.held.sequence.length := Nat.mod_lt _ p.held.sequence.length_pos
    have hcursor : (advance^[i] p).cursor = j := by
      rw [cursor_iterate_advance h, Nat.add_mod_mod]
      have hsum : p.cursor + (j + (p.held.sequence.length - p.cursor)) =
          j + p.held.sequence.length := by omega
      rw [hsum, Nat.add_mod_right, Nat.mod_eq_of_lt (by omega)]
    have hnext : (advance^[i] p).next = op := by
      rw [next, hcursor, held_iterate_advance, Sequence.get, Array.getElem?_eq_getElem hjlt]
      exact hjop
    refine ⟨i, by omega, ?_⟩
    rw [ticks, hnext, hop_pause, Bool.or_true]

/-- The operations of a static sequence do not wait. -/
theorem isPause_next_of_isStatic (hstatic : p.held.sequence.isStatic = true) :
    p.next.isPause = false := by
  rcases p.held.sequence.get_mem_or_eq p.cursor with hmem | hrewind
  · exact (Sequence.isStatic_iff _).1 hstatic _ (Array.mem_toList_iff.2 hmem)
  · rw [next, hrewind]
    rfl

end Player

/-! ### Operations -/

namespace Performance

/-- Whether a player makes the clock tick or begins an operation. -/
def isLoud (a : Action) : Bool := isTick a || a.beginsStep

/-- In what a player does, it begins no operation, and the clock does not tick. -/
def IsQuiet (acts : List Action) : Prop := ∀ a ∈ acts, isLoud a = false

/-- In what a player does, it begins one operation, and the clock does not tick. -/
def IsSilent (acts : List Action) : Prop :=
  acts.countP Action.beginsStep = 1 ∧ acts.countP isTick = 0

/-- In what a player does, it begins one operation, and makes the clock tick once, in the end. -/
def EndsInTick (acts : List Action) : Prop :=
  ∃ before a, acts = before ++ [a] ∧ IsSilent before ∧ isTick a = true

variable {α : Type} (script : List TimedCue) (last : Nat)

/-- Between ticks the shared state is all that changes. -/
theorem run_of_avoiding {promise : α → Prop} {d : Activity α}
    (hd : d.Follows (.avoiding isLoud) promise) (p : Performance) :
    d.run (act script last) p = ((p.world.run d).1, { p with world := (p.world.run d).2 }) ∧
      IsQuiet (d.asked (act script last) p) := by
  induction d generalizing p with
  | done a => exact ⟨rfl, fun _ ha => absurd ha List.not_mem_nil⟩
  | ask a next ih =>
    obtain ⟨hquiet, hnext⟩ := hd
    have hquiet : isLoud a = false := hquiet
    have hstill : isTick a = false := (Bool.or_eq_false_iff.1 hquiet).1
    have hact : act script last a p =
        ((p.world.act a).1, { p with world := (p.world.act a).2 }) := by
      unfold act
      rw [hstill]
      rfl
    obtain ⟨hrun, hasked⟩ :=
      ih _ (hnext (p.world.act a).1 trivial) { p with world := (p.world.act a).2 }
    rw [Dialogue.run_ask, Dialogue.asked, hact]
    refine ⟨hrun, ?_⟩
    intro b hb
    rcases List.mem_cons.1 hb with rfl | hb
    · exact hquiet
    · exact hasked b hb

/-- What a run comes to when the player does something of a kind before the end, where the clock
    ticks or not. Up to then, neither the active sequence nor the closing flag changes. -/
def PlaysOut (kind : List Action → Prop) (d : Activity α) (p : Performance) (ticking : Bool)
    (answer : α) : Prop :=
  ∃ before w, kind before ∧ w.active = p.world.active ∧ w.closing = p.world.closing ∧
    match ticking with
    | false => d.asked (act script last) p = before ∧
        d.run (act script last) p = (answer, { p with world := w })
    | true => (∃ a, isTick a = true ∧ d.asked (act script last) p = before ++ [a]) ∧
        d.run (act script last) p = (answer, tick script last { p with world := w })

/-- An operation that does not wait is carried out between ticks. -/
theorem playsOut_carryOut {op : Operation} (hop : op.isPause = false) (p : Performance) :
    PlaysOut script last IsQuiet (Player.carryOut op) p false () := by
  have hwrite (pin : Pin) (level : Level) :
      (Player.write pin level).Follows (.avoiding isLoud) fun _ => True := by
    refine ⟨rfl, ?_⟩
    intro reply _
    cases reply with
    | none => trivial
    | some error => exact ⟨rfl, fun _ _ => trivial⟩
  have hfollows : (Player.carryOut op).Follows (.avoiding isLoud) fun _ => True := by
    cases op with
    | on pin => exact hwrite pin .high
    | off pin => exact hwrite pin .low
    | pause length => cases hop
    | rewind => trivial
  have hplain : ∀ a ∈ op.effects, a.isPlain = true := by
    intro a ha
    cases op with
    | on pin | off pin | pause length =>
      rw [List.mem_singleton.1 ha]
      rfl
    | rewind => cases ha
  have hpublished : op.effects.flatMap Action.published = [] := by cases op <;> rfl
  obtain ⟨_, hpassed⟩ := World.passed_run (Player.hasEffects_carryOut op) hplain p.world
  have hactive := hpassed.active
  rw [hpublished] at hactive
  obtain ⟨hrun, hasked⟩ := run_of_avoiding script last hfollows p
  exact ⟨_, _, hasked, hactive, hpassed.closing, rfl, hrun⟩

/-- A player that has looked carries its next operation out, and the clock ticks in the end if it
    ticks at this operation. -/
theorem playsOut_goOn (c : Player) (p : Performance) :
    PlaysOut script last IsQuiet c.goOn p c.ticks (c.next, c.advance) := by
  cases hpause : c.next.isPause with
  | true =>
    have hstatic : c.held.sequence.isStatic = false := by
      rw [Bool.eq_false_iff]
      intro hstatic
      rw [Player.isPause_next_of_isStatic hstatic] at hpause
      cases hpause
    have hticks : c.ticks = true := by rw [Player.ticks, hpause, Bool.or_true]
    obtain ⟨length, hlength⟩ : ∃ length, c.next = .pause length := by
      cases hnext : c.next with
      | pause length => exact ⟨length, rfl⟩
      | on | off | rewind =>
        rw [hnext] at hpause
        cases hpause
    have hgoOn : c.goOn = .ask (.sleep length) fun _ => .done (c.next, c.advance) := by
      unfold Player.goOn
      rw [hstatic, hlength]
      rfl
    rw [hticks, hgoOn]
    refine ⟨[], (p.world.act (.sleep length)).2, ?_, rfl, rfl, ⟨_, rfl, rfl⟩, rfl⟩
    exact fun _ ha => absurd ha List.not_mem_nil
  | false =>
    obtain ⟨before, w, hquiet, hactive, hclosing, hasked, hrun⟩ :=
      playsOut_carryOut script last hpause p
    have hticks : c.ticks = c.held.sequence.isStatic := by
      rw [Player.ticks, hpause, Bool.or_false]
    rw [hticks]
    unfold Player.goOn PlaysOut
    rw [Dialogue.asked_bind, Dialogue.run_bind, hasked, hrun]
    cases c.held.sequence.isStatic with
    | true =>
      exact ⟨before, (w.act .yield).2, hquiet, hactive, hclosing, ⟨.yield, rfl, rfl⟩, rfl⟩
    | false => exact ⟨before, w, hquiet, hactive, hclosing, List.append_nil _, rfl⟩

/-- A round of a player that has something to play leads up to an operation. -/
theorem round_eq_goOn {player : Player} {p : Performance} (hopen : p.world.closing = false)
    (hreach : player.IsReachableWith p.world.active) (hactive : p.world.active.sequence ≠ .idle) :
    let c := player.adopt p.world.active
    player.round.run (act script last) p = (some (c.goOn.run (act script last) p).1.2,
        (c.goOn.run (act script last) p).2) ∧
      ∃ lead, IsSilent lead ∧
        player.round.asked (act script last) p = lead ++ c.goOn.asked (act script last) p := by
  intro c
  let step : Activity (Option Player) := player.step >>= fun stepped => pure (some stepped.2)
  have hrun : step.run (act script last) p = (some (c.goOn.run (act script last) p).1.2,
      (c.goOn.run (act script last) p).2) := Dialogue.run_bind ..
  have hasked : step.asked (act script last) p = .load :: c.goOn.asked (act script last) p :=
    (Dialogue.asked_bind ..).trans (List.append_nil _)
  have hround : player.round.run (act script last) p =
        (if p.world.closing then pure none else player.playOn).run (act script last) p ∧
      player.round.asked (act script last) p = .isClosing ::
        (if p.world.closing then pure none else player.playOn).asked (act script last) p :=
    ⟨rfl, rfl⟩
  rw [hopen, if_neg Bool.false_ne_true] at hround
  rw [hround.1, hround.2]
  unfold Player.playOn
  cases hempty : player.held.sequence.isEmpty with
  | false => exact ⟨hrun, [.isClosing, .load], ⟨rfl, rfl⟩, congrArg (List.cons _) hasked⟩
  | true =>
    -- the player has fallen behind, and its wait is over at once
    have hidle : player.held.sequence = .idle := (Sequence.isEmpty_iff _).1 hempty
    have hready : (p.world.active.id != player.held.id) = true :=
      bne_iff_ne.2 (hreach.id_ne hactive hidle)
    have hwait : ((if true then Activity.await player.held.id else pure true) >>= fun ready =>
        if ready then step else pure (some player)).run (act script last) p =
          (if (p.world.active.id != player.held.id) then step else pure (some player)).run
            (act script last) p := rfl
    have hwait_asked : ((if true then Activity.await player.held.id else pure true) >>= fun ready =>
        if ready then step else pure (some player)).asked (act script last) p =
          .await player.held.id ::
          (if (p.world.active.id != player.held.id) then step else pure (some player)).asked
            (act script last) p := rfl
    rw [hready, if_pos rfl] at hwait hwait_asked
    refine ⟨hwait.trans hrun, [.isClosing, .await player.held.id, .load], ⟨rfl, rfl⟩, ?_⟩
    exact congrArg (List.cons _) (hwait_asked.trans (congrArg (List.cons _) hasked))

/-- A round of a player that has something to play is one operation. -/
theorem playsOut_round {player : Player} {p : Performance} (hopen : p.world.closing = false)
    (hreach : player.IsReachableWith p.world.active) (hactive : p.world.active.sequence ≠ .idle) :
    let c := player.adopt p.world.active
    PlaysOut script last IsSilent player.round p c.ticks (some c.advance) := by
  intro c
  obtain ⟨hrun, lead, hlead, hasked⟩ := round_eq_goOn script last hopen hreach hactive
  obtain ⟨before, w, hquiet, hsame, hclosing, hgone⟩ := playsOut_goOn script last c p
  have hsilent : IsSilent (lead ++ before) := by
    obtain ⟨hbegins, hticks⟩ := hlead
    have hnone : before.countP Action.beginsStep = 0 ∧ before.countP isTick = 0 := by
      constructor <;> rw [List.countP_eq_zero] <;> intro a ha <;>
        have hloud := Bool.or_eq_false_iff.1 (hquiet a ha)
      · simp [hloud.2]
      · simp [hloud.1]
    unfold IsSilent
    rw [List.countP_append, List.countP_append, hbegins, hticks, hnone.1, hnone.2]
    exact ⟨rfl, rfl⟩
  refine ⟨lead ++ before, w, hsilent, hsame, hclosing, ?_⟩
  rw [hrun, hasked]
  cases hticks : c.ticks with
  | false =>
    rw [hticks] at hgone
    obtain ⟨hgone_asked, hgone_run⟩ := hgone
    exact ⟨by rw [hgone_asked], by rw [hgone_run]⟩
  | true =>
    rw [hticks] at hgone
    obtain ⟨⟨a, ha, hgone_asked⟩, hgone_run⟩ := hgone
    exact ⟨⟨a, ha, by rw [hgone_asked, List.append_assoc]⟩, by rw [hgone_run]⟩

/-! ### Stretches -/

/-- In what a player does, the clock ticks so many times. Up to each tick, the player carries out at
    most 999 operations that do not make the clock tick, and then one that ends in the tick. -/
inductive Paced : Nat → List Action → Prop where
  | done : Paced 0 []
  | stretch {n : Nat} (silent : List (List Action)) (ticking rest : List Action)
      (hlength : silent.length ≤ 999) (hsilent : ∀ acts ∈ silent, IsSilent acts)
      (hticking : EndsInTick ticking) (hrest : Paced n rest) :
      Paced (n + 1) (silent.flatten ++ ticking ++ rest)

/-- A player has something to play, and will have, until the sequencer is told to close at the last
    of the next `m` ticks. -/
structure IsLively (m : Nat) (player : Player) (p : Performance) : Prop where
  isReachable : player.IsReachableWith p.world.active
  active : p.world.active.sequence ≠ .idle
  cues : AreLively p.session (coming script p.ticks m)
  closing : p.world.closing = decide (m = 0)
  closes : ∀ n, p.ticks < n → n ≤ p.ticks + m →
    closesAt script last n = decide (n = p.ticks + m)

/-- After at most `i` operations without a tick, a player carries out one that ends in a tick. It has
    something to play then, with `m` ticks left, and the other rounds follow. -/
def ComesToTick (m i : Nat) (player : Player) (p : Performance) : Prop :=
  ∃ (silent : List (List Action)) (ticking : List Action) (player' : Player) (p' : Performance),
    silent.length ≤ i ∧ (∀ acts ∈ silent, IsSilent acts) ∧ EndsInTick ticking ∧
    IsLively script last m player' p' ∧ p'.ticks = p.ticks + 1 ∧
    ∀ more, (Player.rounds (more + (silent.length + 1)) player).run (act script last) p =
        (Player.rounds more player').run (act script last) p' ∧
      (Player.rounds (more + (silent.length + 1)) player).asked (act script last) p =
        silent.flatten ++ ticking ++ (Player.rounds more player').asked (act script last) p'

section

variable {script last} {m : Nat} {player : Player} {p : Performance}

/-- An operation without a tick changes nothing about that. -/
theorem IsLively.silent (h : IsLively script last (m + 1) player p) {w : GatedWorld}
    (hactive : w.active = p.world.active) (hclosing : w.closing = p.world.closing) :
    IsLively script last (m + 1) (player.adopt p.world.active).advance { p with world := w } := by
  constructor
  · show Player.IsReachableWith _ w.active
    rw [hactive]
    exact h.isReachable.step
  · show w.active.sequence ≠ .idle
    rw [hactive]
    exact h.active
  · exact h.cues
  · exact hclosing.trans h.closing
  · exact h.closes

/-- With a tick, one tick less is left. -/
theorem IsLively.tick (h : IsLively script last (m + 1) player p) {w : GatedWorld}
    (hactive : w.active = p.world.active) (hclosing : w.closing = p.world.closing) :
    (Performance.tick script last { p with world := w }).ticks = p.ticks + 1 ∧
      IsLively script last m (player.adopt p.world.active).advance
        (Performance.tick script last { p with world := w }) := by
  obtain ⟨hreach, hne, hcues, hopen, hcloses⟩ := h.silent hactive hclosing
  -- the cues of this tick come first among those to come
  obtain ⟨hnow, hlater⟩ := areLively_append.1 hcues
  obtain ⟨hticks, hsession, hclosed, hleads⟩ := tick_of_areLively hnow last
  refine ⟨hticks, hreach.leadsTo hleads, hleads.ne_idle hne, ?_, ?_, ?_⟩
  · rw [hticks, hsession]
    exact hlater
  · rw [hclosed, hopen, hcloses _ (Nat.lt_succ_self _) (by omega)]
    simp
  · intro n hlow hhigh
    rw [hticks] at hlow hhigh ⊢
    rw [hcloses n (by omega) (by omega)]
    congr 1
    simp only [eq_iff_iff]
    omega

/-- A round that leaves the player playing is followed by the other rounds. -/
theorem rounds_succ {next : Player} {p' : Performance}
    (hround : player.round.run (act script last) p = (some next, p')) (more : Nat) :
    (Player.rounds (more + 1) player).run (act script last) p =
        (Player.rounds more next).run (act script last) p' ∧
      (Player.rounds (more + 1) player).asked (act script last) p =
        player.round.asked (act script last) p ++
          (Player.rounds more next).asked (act script last) p' := by
  rw [Player.rounds, Dialogue.run_bind, Dialogue.asked_bind, hround]
  exact ⟨rfl, rfl⟩

/-- When the sequencer closes, the next round is the last. -/
theorem rounds_of_closing (hclosing : p.world.closing = true) (more : Nat) :
    (Player.rounds (more + 1) player).run (act script last) p =
        (player, (act script last (.report .playerStopped) p).2) ∧
      (Player.rounds (more + 1) player).asked (act script last) p =
        [.isClosing, .report .playerStopped] := by
  have hround : player.round.run (act script last) p =
      (if p.world.closing then pure none else player.playOn).run (act script last) p := rfl
  have hasked : player.round.asked (act script last) p = .isClosing ::
      (if p.world.closing then pure none else player.playOn).asked (act script last) p := rfl
  rw [hclosing, if_pos rfl] at hround hasked
  rw [Player.rounds, Dialogue.run_bind, Dialogue.asked_bind, hround, hasked]
  exact ⟨rfl, rfl⟩

/-- The next operation ends in a tick. -/
theorem comesToTick_of_ticks (h : IsLively script last (m + 1) player p)
    (hticks : (player.adopt p.world.active).ticks = true) (i : Nat) :
    ComesToTick script last m i player p := by
  have hopen : p.world.closing = false := h.closing
  obtain ⟨before, w, hsilent, hactive, hclosing, hround⟩ :=
    playsOut_round script last hopen h.isReachable h.active
  rw [hticks] at hround
  obtain ⟨⟨a, ha, hasked⟩, hrun⟩ := hround
  obtain ⟨hcount, hlively⟩ := h.tick hactive hclosing
  refine ⟨[], before ++ [a], _, _, Nat.zero_le i, fun _ hacts => absurd hacts List.not_mem_nil,
    ⟨before, a, rfl, hsilent, ha⟩, hlively, hcount, ?_⟩
  intro more
  rw [← hasked]
  exact rounds_succ hrun more

/-- An operation without a tick comes before the others. -/
theorem ComesToTick.after_silent {i : Nat} {next : Player} {before : List Action} {w : GatedWorld}
    (hsilent : IsSilent before)
    (hrun : player.round.run (act script last) p = (some next, { p with world := w }))
    (hasked : player.round.asked (act script last) p = before)
    (h : ComesToTick script last m i next { p with world := w }) :
    ComesToTick script last m (i + 1) player p := by
  obtain ⟨silent, ticking, player', p', hlength, hall, hticking, hlively, hcount, hrounds⟩ := h
  refine ⟨before :: silent, ticking, player', p', Nat.succ_le_succ hlength, ?_, hticking, hlively,
    hcount, ?_⟩
  · intro acts hacts
    rcases List.mem_cons.1 hacts with rfl | hacts
    · exact hsilent
    · exact hall acts hacts
  · intro more
    obtain ⟨hfirst_run, hfirst_asked⟩ := rounds_succ hrun (more + (silent.length + 1))
    obtain ⟨hrest_run, hrest_asked⟩ := hrounds more
    refine ⟨hfirst_run.trans hrest_run, ?_⟩
    rw [hrest_asked, hasked] at hfirst_asked
    simp only [List.flatten_cons, List.append_assoc] at hfirst_asked ⊢
    exact hfirst_asked

/-- A player comes to the tick that is `i` operations away, or to one before it. -/
theorem IsLively.comesToTick (h : IsLively script last (m + 1) player p) {i : Nat}
    (hi : (Player.advance^[i] (player.adopt p.world.active)).ticks = true) :
    ComesToTick script last m i player p := by
  -- each operation without a tick brings the player one closer to the one with it
  induction i generalizing player p with
  | zero => exact comesToTick_of_ticks h hi 0
  | succ i ih =>
    cases hticks : (player.adopt p.world.active).ticks with
    | true => exact comesToTick_of_ticks h hticks (i + 1)
    | false =>
      have hopen : p.world.closing = false := h.closing
      obtain ⟨before, w, hsilent, hactive, hclosing, hround⟩ :=
        playsOut_round script last hopen h.isReachable h.active
      rw [hticks] at hround
      obtain ⟨hasked, hrun⟩ := hround
      -- the player goes on in the sequence that it holds
      have hadopt : (player.adopt p.world.active).advance.adopt w.active =
          (player.adopt p.world.active).advance := by
        apply Player.adopt_of_eq
        rw [Player.held_advance, h.isReachable.held_adopt, hactive]
      have hrest := ih (h.silent hactive hclosing) (by rw [hadopt]; exact hi)
      exact hrest.after_silent hsilent hrun hasked

/-- A player that has something to play until the sequencer is told to close plays up to that tick,
    stretch by stretch, and stops. -/
theorem stops_of_isLively (h : IsLively script last m player p) :
    ∃ acts player' p', Paced m acts ∧ p'.ticks = p.ticks + m ∧ p'.world.closing = true ∧
      ∀ limit, 1000 * m < limit →
        (Player.rounds limit player).run (act script last) p = (player', p') ∧
        (Player.rounds limit player).asked (act script last) p =
          acts ++ [.isClosing, .report .playerStopped] := by
  induction m generalizing player p with
  | zero =>
    have hclosing : p.world.closing = true := h.closing
    refine ⟨[], player, (act script last (.report .playerStopped) p).2, .done, rfl, hclosing, ?_⟩
    intro limit hlimit
    obtain ⟨more, rfl⟩ : ∃ more, limit = more + 1 := ⟨limit - 1, by omega⟩
    exact rounds_of_closing hclosing more
  | succ m ih =>
    -- one stretch up to the next tick, and from there on `m` ticks are left
    have hcursor := Player.cursor_adopt_lt h.isReachable.isReachable.cursor_lt p.world.active
    obtain ⟨i, hi, hticks⟩ := Player.exists_ticks hcursor
    obtain ⟨silent, ticking, next, mid, hlength, hsilent, hticking, hlively, hcount, hrounds⟩ :=
      h.comesToTick hticks
    obtain ⟨acts, player', p', hpaced, hcount', hclosing, hstops⟩ := ih hlively
    refine ⟨silent.flatten ++ ticking ++ acts, player', p',
      .stretch silent ticking acts (by omega) hsilent hticking hpaced, by omega, hclosing, ?_⟩
    intro limit hlimit
    -- of 1000 rounds for each tick, enough are left
    obtain ⟨more, rfl⟩ : ∃ more, limit = more + (silent.length + 1) :=
      ⟨limit - (silent.length + 1), by omega⟩
    obtain ⟨hrun, hasked⟩ := hrounds more
    obtain ⟨hrun', hasked'⟩ := hstops more (by omega)
    rw [hrun, hasked, hrun', hasked', List.append_assoc _ acts]
    exact ⟨rfl, rfl⟩

/-- The clock ticks as often as the number says. -/
theorem Paced.countP_isTick {n : Nat} {acts : List Action} (h : Paced n acts) :
    acts.countP isTick = n := by
  induction h with
  | done => rfl
  | @stretch n silent ticking rest _ hsilent hticking _ ih =>
    obtain ⟨before, a, rfl, hbefore, ha⟩ := hticking
    have hnone : silent.flatten.countP isTick = 0 := by
      rw [List.countP_eq_zero]
      intro b hb
      obtain ⟨acts, hacts, hb⟩ := List.mem_flatten.1 hb
      exact List.countP_eq_zero.1 (hsilent acts hacts).2 b hb
    rw [List.countP_append, List.countP_append, List.countP_append, hnone, hbefore.2, ih,
      List.countP_singleton, if_pos ha]
    omega

/-- What a player does up to its last tick ends in that tick. -/
theorem Paced.exists_last {n : Nat} {acts : List Action} (h : Paced n acts) (hn : 0 < n) :
    ∃ before a, acts = before ++ [a] ∧ isTick a = true := by
  induction h with
  | done => cases hn
  | @stretch n silent ticking rest _ _ hticking hrest ih =>
    rcases Nat.eq_zero_or_pos n with rfl | hpos
    · cases hrest
      obtain ⟨before, a, rfl, _, ha⟩ := hticking
      exact ⟨silent.flatten ++ before, a, by simp, ha⟩
    · obtain ⟨before, a, rfl, ha⟩ := ih hpos
      exact ⟨silent.flatten ++ ticking ++ before, a, by simp, ha⟩

/-- What comes after as many ticks as there are comes after the last of them. -/
theorem mem_of_after_last {before after lead tail : List Action} {a : Action}
    (hsplit : before ++ after = lead ++ a :: tail)
    (hcount : before.countP isTick = lead.countP isTick + 1) {b : Action} (hb : b ∈ after) :
    b ∈ tail := by
  rcases List.append_eq_append_iff.1 hsplit with ⟨more, hlead, _⟩ | ⟨more, hbefore, htail⟩
  · rw [hlead, List.countP_append] at hcount
    omega
  · cases more with
    | nil =>
      rw [hbefore, List.append_nil] at hcount
      omega
    | cons c more =>
      obtain ⟨_, rfl⟩ := List.cons.inj htail
      exact List.mem_append_right more hb

/-- After the last tick no pin is written. -/
theorem Paced.bank_notMem_after {n : Nat} {acts : List Action} (h : Paced n acts) (hn : 0 < n)
    {before after : List Action} (hsplit : .report .playerStarted :: acts ++
      [.isClosing, .report .playerStopped] = before ++ after)
    (hbefore : before.countP isTick = n) (op : BankOp) : .bank op ∉ after := by
  intro hop
  have hcount := h.countP_isTick
  obtain ⟨lead, a, rfl, ha⟩ := h.exists_last hn
  have hlead : (Action.report .playerStarted :: lead).countP isTick + 1 = n := by
    rw [List.countP_append, List.countP_singleton, if_pos ha] at hcount
    rw [List.countP_cons]
    exact hcount
  have hsplit' : before ++ after =
      (.report .playerStarted :: lead) ++ a :: [.isClosing, .report .playerStopped] := by
    rw [← hsplit]
    simp
  have hmem := mem_of_after_last hsplit' (hbefore.trans hlead.symm) hop
  simp at hmem

/-- A script keeps a player alive up to the first tick at which it tells the sequencer to close. -/
theorem isLively_of_first {k : Nat} (hreach : player.IsReachableWith p.world.active)
    (hopen : p.world.closing = false) (hactive : p.world.active.sequence ≠ .idle)
    (hstart : p.ticks = 0) (hcues : AreLively p.session (coming script 0 k)) (hk : 0 < k)
    (hcloses : closesAt script last k = true)
    (hfirst : ∀ n, 0 < n → n < k → closesAt script last n = false) :
    IsLively script last k player p := by
  refine ⟨hreach, hactive, ?_, ?_, ?_⟩
  · rw [hstart]
    exact hcues
  · rw [hopen, decide_eq_false (by omega)]
  · intro n hlow hhigh
    rw [hstart] at hlow hhigh ⊢
    rw [Nat.zero_add] at hhigh ⊢
    rcases Nat.lt_or_eq_of_le hhigh with hlt | rfl
    · rw [hfirst n hlow hlt, decide_eq_false (by omega)]
    · rw [hcloses, decide_eq_true rfl]

/-- **Play goes on and stops.** A player comes to play while another sequence than the idle one is
    active and the sequencer does not close. At the ticks of its clock a script installs sequences,
    hands lines to the session, refuses pins, shuts down and closes, but makes no idle sequence
    active; and the tick `k` is the first at which it tells the sequencer to close. Then play ends,
    however many rounds it is allowed, if these suffice for `k` ticks. The clock has ticked `k`
    times, and what the player does then is to look at the closing flag and to report that it has
    stopped. Before each tick, the player carries out no more than 999 operations in a row that do
    not make the clock tick. -/
theorem play_stops_at_close {k : Nat} (hreach : player.IsReachableWith p.world.active)
    (hopen : p.world.closing = false) (hactive : p.world.active.sequence ≠ .idle)
    (hstart : p.ticks = 0) (hcues : AreLively p.session (coming script 0 k)) (hk : 0 < k)
    (hcloses : closesAt script last k = true)
    (hfirst : ∀ n, 0 < n → n < k → closesAt script last n = false) {limit : Nat}
    (hlimit : roundLimit k ≤ limit) :
    let played := (Player.play limit player).run (act script last) p
    let log := (Player.play limit player).asked (act script last) p
    played = (Player.play (roundLimit k) player).run (act script last) p ∧
    played.2.ticks = k ∧ played.2.world.closing = true ∧ log.countP isTick = k ∧
    (∀ before after, log = before ++ after → before.countP isTick = k →
      ∀ op, .bank op ∉ after) ∧
    ∃ acts, Paced k acts ∧
      log = .report .playerStarted :: acts ++ [.isClosing, .report .playerStopped] := by
  have h := isLively_of_first hreach hopen hactive hstart hcues hk hcloses hfirst
  let begun : Performance := (act script last (.report .playerStarted) p).2
  -- the report changes nothing about that
  have hlively : IsLively script last k player begun :=
    ⟨h.isReachable, h.active, h.cues, h.closing, h.closes⟩
  obtain ⟨acts, player', p', hpaced, hticks, hclosing, hstops⟩ := stops_of_isLively hlively
  have hrounds (limit : Nat) (hlimit : roundLimit k ≤ limit) :
      (Player.play limit player).run (act script last) p = (player', p') ∧
        (Player.play limit player).asked (act script last) p =
          .report .playerStarted :: acts ++ [.isClosing, .report .playerStopped] := by
    have hsuffices : 1000 * k < limit := by
      unfold roundLimit capacity at hlimit
      omega
    obtain ⟨hrun, hasked⟩ := hstops limit hsuffices
    exact ⟨hrun, congrArg (List.cons _) hasked⟩
  intro played log
  obtain ⟨hrun, hasked⟩ := hrounds limit hlimit
  have hplayed : played = (player', p') := hrun
  have hlog : log = .report .playerStarted :: acts ++ [.isClosing, .report .playerStopped] := hasked
  have hcount := hpaced.countP_isTick
  rw [hplayed, hlog]
  refine ⟨(hrounds _ (Nat.le_refl _)).1.symm, ?_, hclosing, ?_, ?_, acts, hpaced, rfl⟩
  · rw [hticks]
    show p.ticks + k = k
    omega
  · rw [List.countP_append, List.countP_cons, hcount]
    rfl
  · intro before after hsplit hbefore op
    exact hpaced.bank_notMem_after hk hsplit hbefore op

/-- A pin blinks, and nothing is refused. -/
def opening : Performance where
  world := (World.start { inner := Hardware.nothing
                          refusedSets := []
                          refusedConfigures := [] }).publish blink
  session := .start { leds := [
    { name := "A", channels := [{ letter := 'r', pin := ⟨1⟩, letter_isLower := Eq.refl true }] }] }
  ticks := 0

/-- A line is handled, then a static sequence is installed and a pin refused, and then the sequencer
    shuts down. -/
def threeTicks : List TimedCue :=
  [{ tick := 3, cue := .shutDown }, { tick := 1, cue := .line "R 1s" },
    { tick := 2, cue := .install [.off ⟨1⟩, .on ⟨1⟩] }, { tick := 2, cue := .refuse [⟨1⟩] [] }]

/-- The clock ticks at a pause of each of the first two sequences, and then once in the static one.
    There would be time for many more ticks. -/
theorem play_stops_at_close_three :
    let player : Player := .start .first
    AreLively opening.session (coming threeTicks 0 3) ∧ closesAt threeTicks 5000 3 = true ∧
      ((Player.play (roundLimit 5000) player).run (act threeTicks 5000) opening).2.ticks = 3 ∧
      ((Player.play (roundLimit 5000) player).asked (act threeTicks 5000) opening).countP isTick =
        3 := by
  intro player
  have hreach : player.IsReachableWith opening.world.active :=
    (Player.IsReachableWith.start Published.first).publish blink
  have hactive : opening.world.active.sequence ≠ .idle := by decide +kernel
  have hcompile : compile "R 1s" opening.session.map opening.session.led =
      .ok { sequence := .ofList [.on ⟨1⟩, .pause (.ofSeconds 1)], led := 0 } := by
    decide +kernel
  have hcues : AreLively opening.session (coming threeTicks 0 3) := by
    have hcoming : coming threeTicks 0 3 = [.line "R 1s", .install [.off ⟨1⟩, .on ⟨1⟩],
      .refuse [⟨1⟩] [], .shutDown] := by decide +kernel
    rw [hcoming]
    refine ⟨?_, ?_, trivial, trivial, trivial⟩
    · intro c hc
      have heq := Except.ok.inj (hc.symm.trans hcompile)
      rw [heq]
      decide +kernel
    · show Sequence.ofList _ ≠ .idle
      decide +kernel
  have hcloses : closesAt threeTicks 5000 3 = true := by decide
  have hfirst : ∀ n, 0 < n → n < 3 → closesAt threeTicks 5000 n = false := by
    intro n hlow hhigh
    obtain rfl | rfl : n = 1 ∨ n = 2 := by omega
    · decide
    · decide
  have hlimit : roundLimit 3 ≤ roundLimit 5000 := by decide
  obtain ⟨_, hticks, _, hcount, _⟩ :=
    play_stops_at_close hreach rfl hactive rfl hcues (by decide) hcloses hfirst hlimit
  exact ⟨hcues, hcloses, hticks, hcount⟩

end

end Performance

end LedSequencer
