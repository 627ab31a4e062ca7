import LedSequencer.Proofs.Adoption
import LedSequencer.Proofs.Effects
import Mathlib.Data.Stream.Init

/-! # Play of one sequence

  As long as a sequence stays active, its player plays it over and over, and all that the
  player does is known from the number of its steps (`play_repeats`). Faults change
  nothing of that, and neither do others who come in between.

  * **Company**: others may come before each action of a party. A stage keeps what the
    party has done itself apart from what they do.
  * **Repetition**: what is ahead of a player is the rest of its sequence, and then the
    sequence without end.
  * **Steps**: what steps amount to, one and many.
  * **Views**: the sleeps, yields and calls of operations.
  * **Levels**: from the first round on, the levels of the pins recur in every round.
-/

namespace LedSequencer

/-! ### Company -/

/-- What others do to the shared state before each action of a party. It may depend on how many
    actions there were before, and on the state. -/
abbrev Company (σ : Type) := Nat → World σ → World σ

namespace Company

variable {σ : Type}

/-- The others make no sequence active. -/
def KeepsActive (others : Company σ) : Prop := ∀ turns w, (others turns w).active = w.active

/-- The others do not seal the outputs. -/
def KeepsSeal (others : Company σ) : Prop := ∀ turns w, (others turns w).isSealed = w.isSealed

/-- The others make no use of the outputs. -/
structure KeepsOutputs (others : Company σ) : Prop where
  keepsSeal : others.KeepsSeal
  driver : ∀ turns w, (others turns w).driver = w.driver
  calls : ∀ turns w, (others turns w).calls = w.calls

end Company

/-- The shared state as a party finds it that is not alone, and what the party has done itself. -/
structure Stage (σ : Type) where
  /-- The shared state. -/
  world : World σ
  /-- How many actions there were. -/
  turns : Nat
  /-- The calls that the actions made. -/
  calls : List Attempt
  /-- The sleeps and yields among the actions. -/
  pacing : List Mark

namespace Stage

variable {σ α : Type}

/-- A party that has done nothing yet. -/
def enter (world : World σ) : Stage σ := { world, turns := 0, calls := [], pacing := [] }

variable [PinDriver σ]

/-- The others come, and then the party acts. -/
def act (others : Company σ) (a : Action) (g : Stage σ) : a.Reply × Stage σ :=
  let found := others g.turns g.world
  let acted := found.act a
  (acted.1,
    { world := acted.2
      turns := g.turns + 1
      calls := g.calls ++ acted.2.calls.drop found.calls.length
      pacing := g.pacing ++ acted.2.pacing.drop found.pacing.length })

/-- Runs an activity in company. -/
def run (others : Company σ) (d : Activity α) (g : Stage σ) : α × Stage σ :=
  Dialogue.run (act others) d g

/-- The way from one stage to another by some effects of the party. -/
structure Passed (others : Company σ) (g g' : Stage σ) (effects : List Action) : Prop where
  active : g'.world.active = (effects.flatMap Action.published).foldl Published.next g.world.active
  pacing : g'.pacing = g.pacing ++ effects.flatMap Action.pacing
  calls : others.KeepsSeal → g'.world.isSealed = g.world.isSealed ∧
    g'.calls.map Prod.fst = g.calls.map Prod.fst ++ g.world.letThrough effects
  called : others.KeepsOutputs → World.Called g.world g'.world (g.world.letThrough effects)

variable {others : Company σ} {g g' g'' : Stage σ} {effects more : List Action}

theorem Passed.refl (others : Company σ) (g : Stage σ) : Passed others g g [] where
  active := rfl
  pacing := (List.append_nil _).symm
  calls _ := ⟨rfl, (List.append_nil _).symm⟩
  called _ := .nothing rfl rfl

theorem Passed.trans (h : Passed others g g' effects) (h' : Passed others g' g'' more) :
    Passed others g g'' (effects ++ more) := by
  have hlet : others.KeepsSeal → g.world.letThrough (effects ++ more) =
      g.world.letThrough effects ++ g'.world.letThrough more := by
    intro hseal
    unfold World.letThrough
    rw [(h.calls hseal).1, List.flatMap_append]
  constructor
  · rw [h'.active, h.active, List.flatMap_append, List.foldl_append]
  · rw [h'.pacing, h.pacing, List.flatMap_append, List.append_assoc]
  · intro hseal
    obtain ⟨hsealed, hcalls⟩ := h.calls hseal
    obtain ⟨hsealed', hcalls'⟩ := h'.calls hseal
    refine ⟨hsealed'.trans hsealed, ?_⟩
    rw [hcalls', hcalls, hlet hseal, List.append_assoc]
  · intro houtputs
    rw [hlet houtputs.keepsSeal]
    exact (h.called houtputs).trans (h'.called houtputs)

/-- What an action does in the state that it finds is what the party has done. -/
theorem passed_of_world (hactive : others.KeepsActive) {a : Action}
    (h : World.Passed (others g.turns g.world) (g.act others a).2.world effects) :
    Passed others g (g.act others a).2 effects := by
  -- the action finds the seal as the others have left it
  have hlet : others.KeepsSeal →
      (others g.turns g.world).letThrough effects = g.world.letThrough effects := by
    intro hseal
    unfold World.letThrough
    rw [hseal]
  constructor
  · rw [h.active, hactive]
  · show g.pacing ++ List.drop _ (g.act others a).2.world.pacing = _
    rw [h.pacing, List.drop_left]
  · intro hseal
    refine ⟨h.isSealed.trans (hseal g.turns g.world), ?_⟩
    obtain ⟨attempts, hcalls, hmap, _⟩ := h.called
    show List.map Prod.fst (g.calls ++ List.drop _ (g.act others a).2.world.calls) = _
    rw [hcalls, List.drop_left, List.map_append, hmap, hlet hseal]
  · intro houtputs
    -- the others call nothing, and the driver is the same
    have hnothing : World.Called g.world (others g.turns g.world) [] :=
      .nothing (houtputs.calls g.turns g.world) (houtputs.driver g.turns g.world)
    have hcalled := hnothing.trans h.called
    rw [hlet houtputs.keepsSeal] at hcalled
    exact hcalled

/-- What an activity comes to in company is known from its effects. -/
theorem passed_run (hactive : others.KeepsActive) {d : Activity α} {answer : α}
    (h : d.HasEffects effects answer) (hplain : ∀ a ∈ effects, a.isPlain = true) (g : Stage σ) :
    (g.run others d).1 = answer ∧ Passed others g (g.run others d).2 effects := by
  apply h.run (P := fun effects g g' => Passed others g g' effects)
  · intro g
    exact .refl others g
  · intro effects more g g' g'' hfirst hthen
    exact hfirst.trans hthen
  · intro a g ha
    exact passed_of_world hactive (World.passed_aside ha _)
  · intro a g ha
    exact passed_of_world hactive (World.passed_act (hplain a ha) _)

end Stage

/-! ### Repetition -/

namespace Sequence

theorem operations_ne_nil (s : Sequence) : s.operations ≠ [] := by
  intro hnil
  have hlength := s.length_operations
  rw [hnil] at hlength
  exact absurd hlength.symm (Nat.ne_of_gt s.length_pos)

/-- The operations of a sequence, repeated without end. -/
def endless (s : Sequence) : Stream' Operation := Stream'.cycle s.operations s.operations_ne_nil

theorem endless_eq (s : Sequence) : s.endless = s.operations ++ₛ s.endless :=
  Stream'.cycle_eq s.operations s.operations_ne_nil

/-- Endless repetition is the same after a round. -/
theorem drop_endless (s : Sequence) : s.endless.drop s.length = s.endless := by
  have hdrop := Stream'.drop_append_stream s.operations s.endless
  rw [← endless_eq, length_operations] at hdrop
  exact hdrop

end Sequence

namespace Player

/-- What is ahead of a player while it plays one sequence. -/
def ahead (p : Player) : Stream' Operation :=
  p.held.sequence.operations.drop p.cursor ++ₛ p.held.sequence.endless

theorem ahead_start (active : Published) : (start active).ahead = active.sequence.endless :=
  active.sequence.endless_eq.symm

variable {p : Player}

theorem drop_operations (h : p.cursor < p.held.sequence.length) :
    p.held.sequence.operations.drop p.cursor =
      p.next :: p.held.sequence.operations.drop (p.cursor + 1) := by
  have hlt : p.cursor < p.held.sequence.operations.length := by
    rwa [Sequence.length_operations]
  have hnext : p.held.sequence.operations[p.cursor] = p.next := by
    have hget := Sequence.getElem?_operations h
    rw [List.getElem?_eq_getElem hlt] at hget
    exact Option.some.inj hget
  rw [List.drop_eq_getElem_cons hlt, hnext]

/-- The next operation is the first one ahead, and the others stay ahead. -/
theorem ahead_eq (h : p.cursor < p.held.sequence.length) :
    p.ahead = Stream'.cons p.next p.advance.ahead := by
  have hrest : p.advance.ahead =
      p.held.sequence.operations.drop (p.cursor + 1) ++ₛ p.held.sequence.endless := by
    by_cases hnext : p.next = .rewind
    · -- the round is complete, and the next one begins
      have hlast : p.cursor + 1 = p.held.sequence.operations.length := by
        rw [Sequence.length_operations]
        exact (Sequence.get_eq_rewind_iff h).1 hnext
      rw [advance_of_rewind hnext, hlast, List.drop_length]
      exact p.held.sequence.endless_eq.symm
    · rw [advance_of_ne hnext]
      rfl
  rw [hrest, ahead, drop_operations h]
  rfl

theorem cursor_advance (h : p.cursor < p.held.sequence.length) :
    p.advance.cursor = (p.cursor + 1) % p.held.sequence.length := by
  have hlast := Sequence.get_eq_rewind_iff h
  by_cases hnext : p.next = .rewind
  · rw [advance_of_rewind hnext, hlast.1 hnext, Nat.mod_self]
  · have hne : p.cursor + 1 ≠ p.held.sequence.length := mt hlast.2 hnext
    have hlt : p.cursor + 1 < p.held.sequence.length := by omega
    rw [advance_of_ne hnext, Nat.mod_eq_of_lt hlt]

end Player

/-! ### Steps -/

namespace Player

/-- Takes so many steps; answers with the operations in order and the player after them. -/
def steps : Nat → Player → Activity (List Operation × Player)
  | 0, p => pure ([], p)
  | more + 1, p => do
    let stepped ← p.step
    let rest ← steps more stepped.2
    pure (stepped.1 :: rest.1, rest.2)

variable {σ : Type} [PinDriver σ] {others : Company σ} {p : Player} {g : Stage σ}

/-- While its sequence stays active, a player carries out what comes next in it. -/
theorem run_step (hactive : others.KeepsActive) (hheld : g.world.active = p.held) :
    (g.run others p.step).1 = (p.next, p.advance) ∧
      Stage.Passed others g (g.run others p.step).2 p.effects := by
  -- the player looks, and finds the sequence that it holds
  have hlooked : Stage.Passed others g (g.act others .load).2 [] :=
    Stage.passed_of_world hactive (World.passed_aside (a := .load) rfl _)
  have hfound : (g.act others .load).1 = p.held := (hactive g.turns g.world).trans hheld
  have hadopt : p.adopt (g.act others .load).1 = p := by
    apply adopt_of_eq
    rw [hfound]
  have hrun : g.run others p.step = (g.act others .load).2.run others p.goOn := by
    show (g.act others .load).2.run others (p.adopt (g.act others .load).1).goOn = _
    rw [hadopt]
  obtain ⟨hanswer, hgone⟩ := Stage.passed_run hactive p.hasEffects_goOn
    (fun _ => isPlain_of_mem_effects) (g.act others .load).2
  rw [hrun]
  exact ⟨hanswer, hlooked.trans hgone⟩

/-- While its sequence stays active, a player carries out what is ahead of it in order. -/
theorem run_steps (hactive : others.KeepsActive) (hheld : g.world.active = p.held)
    (hcursor : p.cursor < p.held.sequence.length) (n : Nat) :
    (g.run others (p.steps n)).1 = (p.ahead.take n,
        { held := p.held, cursor := (p.cursor + n) % p.held.sequence.length }) ∧
      Stage.Passed others g (g.run others (p.steps n)).2
        ((p.ahead.take n).flatMap p.held.sequence.effects) := by
  -- on the number of steps: after each of them the player still holds the active sequence
  induction n generalizing p g with
  | zero =>
    refine ⟨?_, .refl others g⟩
    rw [Nat.add_zero, Nat.mod_eq_of_lt hcursor]
    rfl
  | succ more ih =>
    obtain ⟨hanswer, hpassed⟩ := run_step hactive hheld
    have hsame : (g.run others p.step).2.world.active = p.advance.held := by
      rw [hpassed.active, published_effects, held_advance]
      exact hheld
    have hlt := cursor_advance_lt hcursor
    rw [← held_advance] at hlt
    obtain ⟨hrest, hthen⟩ := ih hsame hlt
    have hrun : g.run others (p.steps (more + 1)) =
        ((p.next :: ((g.run others p.step).2.run others (p.advance.steps more)).1.1,
            ((g.run others p.step).2.run others (p.advance.steps more)).1.2),
          ((g.run others p.step).2.run others (p.advance.steps more)).2) := by
      simp only [Stage.run, steps, Dialogue.run_bind] at hanswer ⊢
      rw [hanswer]
      rfl
    -- the place goes around the same way from the advanced cursor
    have hplace : (p.advance.cursor + more) % p.held.sequence.length =
        (p.cursor + (more + 1)) % p.held.sequence.length := by
      rw [cursor_advance hcursor, Nat.mod_add_mod, Nat.add_assoc, Nat.add_comm 1]
    rw [hrun, hrest, ahead_eq hcursor, Stream'.take_succ_cons, List.flatMap_cons]
    rw [held_advance] at hthen ⊢
    rw [hplace]
    exact ⟨rfl, hpassed.trans hthen⟩

end Player

namespace World

variable {σ : Type} [PinDriver σ]

/-- In company, a new player of the active sequence takes so many steps. -/
def playFor (n : Nat) (others : Company σ) (w : World σ) : (List Operation × Player) × Stage σ :=
  (Stage.enter w).run others ((Player.start w.active).steps n)

theorem run_playFor {others : Company σ} (hactive : others.KeepsActive) (w : World σ) (n : Nat) :
    (w.playFor n others).1 = (w.active.sequence.endless.take n,
        { held := w.active, cursor := n % w.active.sequence.length }) ∧
      Stage.Passed others (.enter w) (w.playFor n others).2
        ((w.active.sequence.endless.take n).flatMap w.active.sequence.effects) := by
  have hrun := Player.run_steps (g := .enter w) (p := .start w.active) hactive rfl
    w.active.sequence.length_pos n
  have hcursor : (Player.start w.active).cursor + n = n := Nat.zero_add n
  rw [Player.ahead_start, hcursor] at hrun
  exact hrun

end World

/-! ### Views -/

/-- How long an operation waits, when it does. -/
def Operation.wait? : Operation → Option Span
  | .pause length => some length
  | _ => none

/-- The call that makes a transition. -/
def Call.ofTransition (driven : Pin × Level) : Call := .set driven.1 driven.2

namespace Sequence

variable (s : Sequence) (ops : List Operation)

theorem sleeps_effects :
    ((ops.flatMap s.effects).flatMap Action.pacing).filterMap Mark.sleep? =
      ops.filterMap Operation.wait? := by
  induction ops with
  | nil => rfl
  | cons op rest ih =>
    have hop : ((s.effects op).flatMap Action.pacing).filterMap Mark.sleep? =
        [op].filterMap Operation.wait? := by
      unfold effects
      cases op <;> cases s.isStatic <;> rfl
    rw [List.flatMap_cons, List.flatMap_append, List.filterMap_append, ih, hop,
      ← List.filterMap_append]
    rfl

/-- Static sequences yield after every operation, and others never. -/
theorem yields_effects :
    ((ops.flatMap s.effects).flatMap Action.pacing).countP Mark.isYield =
      if s.isStatic then ops.length else 0 := by
  induction ops with
  | nil => exact (ite_self 0).symm
  | cons op rest ih =>
    have hop : ((s.effects op).flatMap Action.pacing).countP Mark.isYield =
        if s.isStatic then 1 else 0 := by
      unfold effects
      cases op <;> cases s.isStatic <;> rfl
    rw [List.flatMap_cons, List.flatMap_append, List.countP_append, ih, hop]
    by_cases hstatic : s.isStatic = true
    · rw [if_pos hstatic, if_pos hstatic, if_pos hstatic, List.length_cons, Nat.add_comm]
    · rw [if_neg hstatic, if_neg hstatic, if_neg hstatic]

theorem calls_effects :
    (ops.flatMap s.effects).flatMap (Action.calls false) =
      (ops.filterMap Operation.transition).map Call.ofTransition := by
  induction ops with
  | nil => rfl
  | cons op rest ih =>
    have hop : (s.effects op).flatMap (Action.calls false) =
        ([op].filterMap Operation.transition).map Call.ofTransition := by
      unfold effects
      cases op <;> cases s.isStatic <;> rfl
    rw [List.flatMap_cons, List.flatMap_append, ih, hop, ← List.map_append,
      ← List.filterMap_append]
    rfl

/-- A sequence is static when none of its operations waits. -/
theorem isStatic_eq_not_any : s.isStatic = !s.operations.any Operation.isPause := by
  have hrewind : [Operation.rewind].any Operation.isPause = false := rfl
  rw [s.isStatic_eq, ← Array.all_toList, operations, List.any_append, hrewind, Bool.or_false,
    List.all_eq_not_any_not]
  simp only [Bool.not_not]

end Sequence

/-! ### Levels -/

namespace Attempt

/-- The last write to a pin among the calls of operations, if none of them fails. -/
def lastDriven? (pin : Pin) (ops : List Operation) : Option (Level × Option Fault) :=
  lastWrite? pin
    (((ops.filterMap Operation.transition).map Call.ofTransition).map fun call => (call, none))

theorem lastDriven?_append (pin : Pin) (ops more : List Operation) :
    lastDriven? pin (ops ++ more) = (lastDriven? pin more).or (lastDriven? pin ops) := by
  unfold lastDriven?
  rw [List.filterMap_append, List.map_append, List.map_append, lastWrite?_append]

/-- Once a round is complete, another one changes no level, wherever the rounds begin. -/
theorem lastDriven?_endless (s : Sequence) {n : Nat} (h : s.length ≤ n) (pin : Pin) :
    lastDriven? pin (s.endless.take (n + s.length)) = lastDriven? pin (s.endless.take n) := by
  obtain ⟨before, rfl⟩ := Nat.exists_eq_add_of_le' h
  -- the last two rounds are the same
  have hagain : s.endless.drop (before + s.length) = s.endless.drop before := by
    rw [Nat.add_comm, ← Stream'.drop_drop, s.drop_endless]
  rw [Stream'.take_add (before + s.length), hagain, Stream'.take_add before, lastDriven?_append,
    lastDriven?_append, ← Option.or_assoc, Option.or_self]

end Attempt

/-- **Endless play.** A player of the active sequence takes steps, from its first operation on, and
    others come in between who leave that sequence active. Whatever the driver answers, any number
    of steps returns so many operations of the sequence repeated without end. The sleeps are the
    pauses among them, and there is a yield for each of them if the sequence has no pause and none
    otherwise. While nobody seals the outputs, the calls are the transitions among them if the
    outputs are open, and there are none if they are sealed. When the driver never fails and nobody
    else uses the open outputs, then from the first round on the level of every pin is the same
    again a round later. -/
theorem play_repeats {σ : Type} [PinDriver σ] (w : World σ) (others : Company σ)
    (hactive : others.KeepsActive) :
    let s := w.active.sequence
    (∀ n,
      let ops := s.endless.take n
      let played := w.playFor n others
      played.1 = (ops, { held := w.active, cursor := n % s.length }) ∧
        played.2.pacing.filterMap Mark.sleep? = ops.filterMap Operation.wait? ∧
        played.2.pacing.countP Mark.isYield =
          (if s.operations.any Operation.isPause then 0 else n) ∧
        (others.KeepsSeal → played.2.calls.map Prod.fst =
          if w.isSealed then [] else (ops.filterMap Operation.transition).map Call.ofTransition)) ∧
    (IsReliable w.driver → w.isSealed = false → others.KeepsOutputs →
      ∀ n, s.length ≤ n → ∀ pin,
        Attempt.lastWrite? pin (w.playFor (n + s.length) others).2.world.calls =
          Attempt.lastWrite? pin (w.playFor n others).2.world.calls) := by
  intro s
  constructor
  · intro n ops played
    obtain ⟨hanswer, hpassed⟩ := w.run_playFor hactive n
    have hpacing : played.2.pacing = (ops.flatMap s.effects).flatMap Action.pacing :=
      hpassed.pacing
    refine ⟨hanswer, ?_, ?_, ?_⟩
    · rw [hpacing, s.sleeps_effects]
    · rw [hpacing, s.yields_effects, s.isStatic_eq_not_any, Stream'.length_take]
      cases s.operations.any Operation.isPause <;> rfl
    · intro hseal
      rw [(hpassed.calls hseal).2, World.letThrough_eq, s.calls_effects]
      rfl
  · intro hdriver hopen houtputs n hn pin
    have hunsealed : (Stage.enter w).world.isSealed = false := hopen
    -- the level of a pin is what the operations wrote last, or else what was written before
    have hlevel : ∀ n, Attempt.lastWrite? pin (w.playFor n others).2.world.calls =
        (Attempt.lastDriven? pin (s.endless.take n)).or (Attempt.lastWrite? pin w.calls) := by
      intro n
      obtain ⟨_, hpassed⟩ := w.run_playFor hactive n
      obtain ⟨_, hcalls⟩ := (hpassed.called houtputs).of_isReliable hdriver
      rw [World.letThrough, hunsealed, s.calls_effects] at hcalls
      rw [hcalls, Attempt.lastWrite?_append]
      rfl
    rw [hlevel, hlevel, Attempt.lastDriven?_endless s hn]

/-- A pin goes on for a second, and off. -/
def blink : Sequence := .ofList [.on ⟨4⟩, .pause (.ofSeconds 1), .off ⟨4⟩]

/-- While a pin blinks, somebody has let the sequencer close, and has not sealed the outputs yet. -/
theorem play_repeats_blink :
    let w := (World.start Hardware.nothing).publish blink
    let others : Company Hardware := fun _ w => { w with closing := true }
    let played := w.playFor 5 others
    others.KeepsActive ∧ others.KeepsSeal ∧ others.KeepsOutputs ∧ IsReliable w.driver ∧
      played.1 = ([.on ⟨4⟩, .pause { seconds := 1, nanos := 0 }, .off ⟨4⟩, .rewind, .on ⟨4⟩],
        { held := w.active, cursor := 1 }) ∧
      played.2.pacing.filterMap Mark.sleep? = [{ seconds := 1, nanos := 0 }] ∧
      played.2.pacing.countP Mark.isYield = 0 ∧
      played.2.calls.map Prod.fst = [.set ⟨4⟩ .high, .set ⟨4⟩ .low, .set ⟨4⟩ .high] ∧
      ∀ n, 4 ≤ n → ∀ pin, Attempt.lastWrite? pin (w.playFor (n + 4) others).2.world.calls =
        Attempt.lastWrite? pin (w.playFor n others).2.world.calls := by
  intro w others played
  have hactive : others.KeepsActive := fun _ _ => rfl
  have hseal : others.KeepsSeal := fun _ _ => rfl
  have houtputs : others.KeepsOutputs := ⟨hseal, fun _ _ => rfl, fun _ _ => rfl⟩
  have hdriver : IsReliable w.driver := isReliable_nothing
  have hopen : w.isSealed = false := rfl
  have hlength : w.active.sequence.length = 4 := by decide
  have hwaits : w.active.sequence.operations.any Operation.isPause = true := by decide
  have hops : w.active.sequence.endless.take 5 =
      [.on ⟨4⟩, .pause { seconds := 1, nanos := 0 }, .off ⟨4⟩, .rewind, .on ⟨4⟩] := by
    decide +kernel
  obtain ⟨hsteps, hlevels⟩ := play_repeats w others hactive
  obtain ⟨hanswer, hsleeps, hyields, hcalls⟩ := hsteps 5
  have hperiod := hlevels hdriver hopen houtputs
  rw [hlength] at hperiod
  refine ⟨hactive, hseal, houtputs, hdriver, ?_, ?_, ?_, ?_, hperiod⟩
  · rw [hanswer, hops, hlength]
  · rw [hsleeps, hops]
    rfl
  · rw [hyields, hwaits]
    rfl
  · rw [hcalls hseal, hops]
    rfl

end LedSequencer
