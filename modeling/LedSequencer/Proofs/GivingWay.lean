import LedSequencer.Proofs.Composition
import LedSequencer.Proofs.Cues
import LedSequencer.Proofs.PauseLiterals

/-! # Giving way

  A player gives way to others when it yields, and when it sleeps for more than no time. In
  every round of a sequence that a line makes it does so, wherever the round begins, unless
  the line has pauses and writes the amount zero in each of them. Then the sequence is not
  static, nothing in it lasts, and its player never gives way (`gives_way_iff`).

  * **Rounds**: the operations of a round, and the marks that they leave.
  * **Lines**: the pauses of a sequence are those of the line.
-/

namespace LedSequencer

/-! ### Rounds -/

/-- Whether others get to run: at a yield they do, and while a sleep lasts. -/
def Mark.givesWay : Mark → Bool
  | .yielded => true
  | .slept length => decide (0 < length.toNanos)
  | .called _ _ | .reported _ => false

/-- Whether an operation waits for more than no time. -/
def Operation.lasts : Operation → Bool
  | .pause length => decide (0 < length.toNanos)
  | .on _ | .off _ | .rewind => false

namespace Sequence

variable (s : Sequence)

/-- Whether a sequence has pauses, and none that lasts. -/
def spins : Bool := s.operations.any Operation.isPause && !s.operations.any Operation.lasts

theorem spins_iff : s.spins = true ↔ (∃ d, .pause d ∈ s.operations) ∧
    ∀ d, .pause d ∈ s.operations → d.toNanos = 0 := by
  unfold spins
  rw [Bool.and_eq_true, List.any_eq_true, Bool.not_eq_true', List.any_eq_false]
  constructor
  · rintro ⟨⟨op, hop, hpause⟩, hnone⟩
    constructor
    · cases op with
      | pause d => exact ⟨d, hop⟩
      | on | off | rewind => cases hpause
    · intro d hd
      have hlasts := hnone _ hd
      simp only [Operation.lasts, decide_eq_true_eq] at hlasts
      omega
  · rintro ⟨⟨d, hd⟩, hempty⟩
    refine ⟨⟨_, hd, rfl⟩, ?_⟩
    intro op hop
    cases op with
    | pause d =>
      have hzero := hempty d hop
      simp only [Operation.lasts, decide_eq_true_eq]
      omega
    | on | off | rewind => exact Bool.false_ne_true

/-- A static sequence gives way at every operation, any other one at the pauses that last. -/
theorem any_givesWay_effects (ops : List Operation) :
    ((ops.flatMap s.effects).flatMap Action.pacing).any Mark.givesWay =
      ops.any fun op => s.isStatic || op.lasts := by
  induction ops with
  | nil => rfl
  | cons op rest ih =>
    have hop : ((s.effects op).flatMap Action.pacing).any Mark.givesWay =
        (s.isStatic || op.lasts) := by
      unfold effects
      cases op <;> cases s.isStatic <;> simp [Operation.effects, Action.pacing, Mark.givesWay,
        Operation.lasts]
    rw [List.flatMap_cons, List.flatMap_append, List.any_append, ih, hop, List.any_cons]

/-- All operations of a sequence together give way, unless it spins. -/
theorem any_operations_eq : (s.operations.any fun op => s.isStatic || op.lasts) = !s.spins := by
  rw [spins, isStatic_eq_not_any]
  cases hpauses : s.operations.any Operation.isPause with
  | true => simp
  | false =>
    -- the `rewind` at least is there
    obtain ⟨op, rest, hops⟩ := List.exists_cons_of_ne_nil s.operations_ne_nil
    rw [hops]
    rfl

/-- Whichever operations of a sequence that spins are carried out, they do not give way. -/
theorem any_of_spins (hspins : s.spins = true) {ops : List Operation}
    (hops : ∀ op ∈ ops, op ∈ s.operations) :
    (ops.any fun op => s.isStatic || op.lasts) = false := by
  have hall := s.any_operations_eq
  rw [hspins, Bool.not_true, List.any_eq_false] at hall
  rw [List.any_eq_false]
  exact fun op hop => hall op (hops op hop)

end Sequence

namespace Player

variable {p : Player}

/-- A round has all operations of the sequence, wherever it begins. -/
theorem perm_take_ahead (h : p.cursor < p.held.sequence.length) :
    (p.ahead.take p.held.sequence.length).Perm p.held.sequence.operations := by
  let ops := p.held.sequence.operations
  have hcursor : p.cursor ≤ ops.length := by
    rw [Sequence.length_operations]
    exact Nat.le_of_lt h
  have hlength : p.held.sequence.length = (ops.drop p.cursor).length + p.cursor := by
    rw [List.length_drop, Nat.sub_add_cancel hcursor, Sequence.length_operations]
  have hbegin : p.held.sequence.endless.take p.cursor = ops.take p.cursor := by
    rw [Sequence.endless_eq, Stream'.take_append_of_le_length _ _ _ hcursor]
  have hround : p.ahead.take p.held.sequence.length = ops.drop p.cursor ++ ops.take p.cursor :=
    calc p.ahead.take p.held.sequence.length
        = ops.drop p.cursor ++ p.held.sequence.endless.take p.cursor := by
          rw [hlength, Stream'.append_take]
          rfl
      _ = ops.drop p.cursor ++ ops.take p.cursor := by rw [hbegin]
  rw [hround]
  exact List.perm_append_comm.trans (List.Perm.of_eq (List.take_append_drop ..))

/-- Only operations of the sequence are ahead of its player. -/
theorem mem_operations_of_mem_ahead (h : p.cursor < p.held.sequence.length) {n : Nat}
    {op : Operation} (hop : op ∈ p.ahead.take n) : op ∈ p.held.sequence.operations := by
  induction n generalizing p with
  | zero => cases hop
  | succ n ih =>
    rw [ahead_eq h, Stream'.take_succ_cons, List.mem_cons] at hop
    rcases hop with rfl | hop
    · exact List.mem_of_getElem? (Sequence.getElem?_operations h)
    · have hlt := cursor_advance_lt h
      rw [← held_advance] at hlt ⊢
      exact ih hlt hop

end Player

/-- What a party has slept and yielded since an earlier stage. -/
def Stage.pacingSince {σ : Type} (g g' : Stage σ) : List Mark := g'.pacing.drop g.pacing.length

namespace Player

variable {σ : Type} [PinDriver σ] {others : Company σ} {p : Player} {g : Stage σ}

theorem adopt_adopt (p : Player) (active : Published) :
    (p.adopt active).adopt active = p.adopt active := by
  by_cases hid : active.id = p.held.id
  · rw [adopt_of_eq hid, adopt_of_eq hid]
  · rw [adopt_of_ne hid]
    exact adopt_of_eq rfl

/-- Before a player takes a step, it may as well have taken up what is active. -/
theorem run_step_adopt (hactive : others.KeepsActive) :
    g.run others p.step = g.run others (p.adopt g.world.active).step := by
  have hfound : (g.act others .load).1 = g.world.active := hactive g.turns g.world
  have hstep : ∀ q : Player, g.run others q.step =
      (g.act others .load).2.run others (q.adopt (g.act others .load).1).goOn := fun _ => rfl
  rw [hstep, hstep, hfound, adopt_adopt]

/-- Nor does that make a difference to where any number of steps leads. -/
theorem run_steps_adopt (hactive : others.KeepsActive) (n : Nat) :
    (g.run others (p.steps n)).2 = (g.run others ((p.adopt g.world.active).steps n)).2 := by
  cases n with
  | zero => rfl
  | succ more =>
    have hstep : g.run others p.step = g.run others (p.adopt g.world.active).step :=
      run_step_adopt hactive
    unfold Stage.run at hstep ⊢
    simp only [steps, Dialogue.run_bind, hstep]

/-- What is slept and yielded in steps on the active sequence is known from what is ahead. -/
theorem any_givesWay_pacingSince (hactive : others.KeepsActive) (hheld : g.world.active = p.held)
    (hcursor : p.cursor < p.held.sequence.length) (n : Nat) :
    (g.pacingSince (g.run others (p.steps n)).2).any Mark.givesWay =
      (p.ahead.take n).any fun op => p.held.sequence.isStatic || op.lasts := by
  obtain ⟨_, hpassed⟩ := run_steps hactive hheld hcursor n
  rw [Stage.pacingSince, hpassed.pacing, List.drop_left, Sequence.any_givesWay_effects]

end Player

/-! ### Lines -/

/-- A line that has pauses and writes the amount zero in each of them. -/
structure IsBreathless (line : String) : Prop where
  pauses : ∃ word ∈ words line.toList, ∃ amount suffix nanos, IsPause word amount suffix nanos
  zeros : ∀ word ∈ words line.toList, ∀ amount suffix nanos,
    IsPause word amount suffix nanos → amount = 0

/-- No unit is empty. -/
theorem pos_of_mem_unitForms {suffix : String} {nanos : Nat} (h : (suffix, nanos) ∈ unitForms) :
    0 < nanos := by
  have hall : ∀ form ∈ unitForms, 0 < form.2 := by decide
  exact hall _ h

/-- A word emits a pause when it is read as one. -/
theorem pause_mem_emission_iff {map : ChannelMap} {led : Nat} {word : List Char} {d : Span} :
    .pause d ∈ emission map led word ↔ Span.ofLiteral? word = some d := by
  constructor
  · intro h
    unfold emission at h
    simp only at h
    split at h
    · obtain ⟨l, _, hoff⟩ := List.mem_flatMap.1 h
      obtain ⟨_, _, heq⟩ := List.mem_map.1 hoff
      cases heq
    split at h
    · obtain ⟨l, _, hletters⟩ := List.mem_flatMap.1 h
      obtain ⟨c, _, hletter⟩ := List.mem_flatMap.1 hletters
      unfold letterEmission at hletter
      split at hletter
      · split at hletter <;> cases List.mem_singleton.1 hletter
      · cases hletter
    split at h
    · obtain ⟨length, hlength, heq⟩ := List.mem_map.1 h
      cases heq
      exact Option.mem_toList.1 hlength
    · cases h
  · intro h
    obtain ⟨_, _, _, hform, _⟩ := exists_isPause h
    obtain ⟨digits, hword, hne, hdigits, _⟩ := hform.digits
    obtain ⟨c, rest, rfl⟩ := List.exists_cons_of_ne_nil hne
    rw [hword, List.cons_append] at h ⊢
    rw [emission_of_isDigit map led (hdigits c List.mem_cons_self), h]
    exact List.mem_singleton_self _

theorem pause_mem_emissions_iff {map : ChannelMap} {led : Nat} {words : List (List Char)}
    {d : Span} : .pause d ∈ emissions map led words ↔
      ∃ word ∈ words, Span.ofLiteral? word = some d := by
  induction words generalizing led with
  | nil => simp [emissions]
  | cons word rest ih =>
    rw [emissions, List.mem_append, pause_mem_emission_iff, ih]
    simp only [List.mem_cons, exists_eq_or_imp]

/-- The pauses of a sequence are those that its line writes. -/
theorem pause_mem_operations_iff {line : String} {map : ChannelMap} {led : Nat} {c : Compiled}
    (hc : compile line map led = .ok c) {d : Span} : .pause d ∈ c.sequence.operations ↔
      ∃ word ∈ words line.toList, ∃ amount suffix nanos,
        IsPause word amount suffix nanos ∧ d.toNanos = amount * nanos := by
  rw [Sequence.operations, (emissions_of_ok hc).1, List.mem_append, pause_mem_emissions_iff]
  constructor
  · rintro (⟨word, hword, hread⟩ | hrewind)
    · exact ⟨word, hword, exists_isPause hread⟩
    · cases List.mem_singleton.1 hrewind
  · rintro ⟨word, hword, amount, suffix, nanos, hpause, hnanos⟩
    obtain ⟨e, hread, hlasts⟩ := hpause.exists_span
    rw [Span.toNanos_injective (hnanos.trans hlasts.symm)]
    exact .inl ⟨word, hword, hread⟩

/-- Breathless lines make sequences that spin, and no other lines do. -/
theorem spins_iff_isBreathless {line : String} {map : ChannelMap} {led : Nat} {c : Compiled}
    (hc : compile line map led = .ok c) : c.sequence.spins = true ↔ IsBreathless line := by
  rw [Sequence.spins_iff]
  constructor
  · rintro ⟨⟨d, hd⟩, hempty⟩
    obtain ⟨word, hword, amount, suffix, nanos, hpause, _⟩ := (pause_mem_operations_iff hc).1 hd
    refine ⟨⟨word, hword, amount, suffix, nanos, hpause⟩, ?_⟩
    intro word hword amount suffix nanos hpause
    obtain ⟨d, _, hnanos⟩ := hpause.exists_span
    have hzero := hempty d
      ((pause_mem_operations_iff hc).2 ⟨word, hword, amount, suffix, nanos, hpause, hnanos⟩)
    rw [hnanos, Nat.mul_eq_zero] at hzero
    exact hzero.resolve_right (Nat.ne_of_gt (pos_of_mem_unitForms hpause.unit))
  · rintro ⟨⟨word, hword, amount, suffix, nanos, hpause⟩, hzeros⟩
    constructor
    · obtain ⟨d, _, hnanos⟩ := hpause.exists_span
      exact ⟨d, (pause_mem_operations_iff hc).2
        ⟨word, hword, amount, suffix, nanos, hpause, hnanos⟩⟩
    · intro d hd
      obtain ⟨word, hword, amount, suffix, nanos, hpause, hnanos⟩ :=
        (pause_mem_operations_iff hc).1 hd
      rw [hnanos, hzeros word hword amount suffix nanos hpause, Nat.zero_mul]

/-- **Play gives way, but for pauses that are none.** The sequence of an accepted line is active, a
    player takes steps on it from any place that it can have come to, and others come in between
    who leave that sequence active. In as many steps as the sequence has operations the player
    yields or sleeps for more than no time, if and only if it is not the case that the line has
    pauses and writes the amount zero in each of them. If that is the case, it never gives way, in
    any number of steps. -/
theorem gives_way_iff {σ : Type} [PinDriver σ] {map : ChannelMap} {led : Nat} {line : String}
    {c : Compiled} (hc : compile line map led = .ok c) {others : Company σ}
    (hactive : others.KeepsActive) {g : Stage σ} (hplays : g.world.active.sequence = c.sequence)
    {p : Player} (hp : p.IsReachableWith g.world.active) :
    let pacing n := g.pacingSince (g.run others (p.steps n)).2
    ((∃ m ∈ pacing c.sequence.length, m.givesWay = true) ↔ ¬ IsBreathless line) ∧
    (IsBreathless line → ∀ n, ∀ m ∈ pacing n, m.givesWay = false) := by
  intro pacing
  -- the first step begins with taking up what is active
  let q := p.adopt g.world.active
  have hheld : q.held = g.world.active := hp.held_adopt
  have hcursor : q.cursor < q.held.sequence.length :=
    Player.cursor_adopt_lt hp.isReachable.cursor_lt g.world.active
  have hsequence : q.held.sequence = c.sequence := by rw [hheld, hplays]
  have hpacing : ∀ n, (pacing n).any Mark.givesWay =
      (q.ahead.take n).any fun op => q.held.sequence.isStatic || op.lasts := by
    intro n
    show (g.pacingSince (g.run others (p.steps n)).2).any _ = _
    rw [Player.run_steps_adopt hactive]
    exact Player.any_givesWay_pacingSince hactive hheld.symm hcursor n
  have hspins : q.held.sequence.spins = true ↔ IsBreathless line := by
    rw [hsequence]
    exact spins_iff_isBreathless hc
  constructor
  · -- a round comes by all operations
    have hround := hpacing q.held.sequence.length
    rw [(Player.perm_take_ahead hcursor).any_eq, Sequence.any_operations_eq, hsequence] at hround
    rw [hsequence] at hspins
    rw [← List.any_eq_true, hround, Bool.not_eq_true', ← Bool.not_eq_true, hspins]
  · intro hbreathless n m hm
    have hnone := hpacing n
    rw [q.held.sequence.any_of_spins (hspins.2 hbreathless)
      fun _ => Player.mem_operations_of_mem_ahead hcursor, List.any_eq_false] at hnone
    exact Bool.eq_false_iff.2 (hnone m hm)

/-- A player that has come to the third operation gives way in the next five, at the pause of a
    nanosecond. -/
theorem gives_way_iff_nanosecond :
    let s : Sequence :=
      .ofList [.on ⟨1⟩, .pause .zero, .off ⟨1⟩, .pause { seconds := 0, nanos := 1 }]
    let w := (World.start Hardware.nothing).publish s
    let p := (((Player.start .first).adopt w.active).advance.adopt w.active).advance
    let others : Company Hardware := fun _ w => { w with closing := true }
    compile "R 0 r 1ns" duo 0 = .ok { sequence := s, led := 0 } ∧ p.cursor = 2 ∧
      ∃ m ∈ (Stage.enter w).pacingSince ((Stage.enter w).run others (p.steps 5)).2,
        m.givesWay = true := by
  intro s w p others
  have hcompile : compile "R 0 r 1ns" duo 0 = .ok { sequence := s, led := 0 } := by
    decide +kernel
  have hactive : others.KeepsActive := fun _ _ => rfl
  have hplays : (Stage.enter w).world.active.sequence = s := rfl
  have hreach : p.IsReachableWith (Stage.enter w).world.active :=
    ((Player.IsReachableWith.start .first).publish s).step.step
  have hpause : IsPause ['1', 'n', 's'] 1 "ns" 1 :=
    { digits := ⟨['1'], rfl, List.cons_ne_nil _ _, List.forall_mem_singleton.2 rfl, rfl⟩
      unit := by decide
      amount_lt := by decide
      hours_lt := by decide
      minutes_lt := by decide }
  have hbreathes : ¬ IsBreathless "R 0 r 1ns" := by
    intro hbreathless
    have hword : ['1', 'n', 's'] ∈ words "R 0 r 1ns".toList := by decide +kernel
    exact absurd (hbreathless.zeros _ hword 1 "ns" 1 hpause) (by decide)
  obtain ⟨hround, _⟩ := gives_way_iff hcompile hactive hplays hreach
  exact ⟨hcompile, by decide +kernel, hround.2 hbreathes⟩

/-- With one pause that is none, a pin is switched on over and over: none of the operations of a
    round gives way. -/
theorem no_way_given_at_zero :
    let s : Sequence := .ofList [.on ⟨1⟩, .pause .zero]
    let w := (World.start Hardware.nothing).publish s
    let alone : Company Hardware := fun _ w => w
    compile "R 0" duo 0 = .ok { sequence := s, led := 0 } ∧ s ≠ .idle ∧ s.length = 3 ∧
      (Player.start w.active).IsReachableWith w.active ∧ alone.KeepsActive ∧
      (w.playFor 3 alone).1.1 = [.on ⟨1⟩, .pause .zero, .rewind] ∧
      ¬ ∃ m ∈ (w.playFor 3 alone).2.pacing, m.givesWay = true := by
  intro s w alone
  refine ⟨by decide +kernel, by decide +kernel, by decide +kernel, .start w.active, fun _ _ => rfl,
    by decide +kernel, ?_⟩
  have hpacing : (w.playFor 3 alone).2.pacing = [.slept .zero] := by decide +kernel
  rw [hpacing]
  decide

end LedSequencer
