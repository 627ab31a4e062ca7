import LedSequencer.Proofs.Effects
import LedSequencer.Proofs.Replacement

/-! # Histories

  Two sequencers over the same channel map may have been through quite different lines,
  installations and steps of play. Once both accept the same line with the same LED
  selected, nothing tells them apart any more (`same_play_after_line`).

  * **Rigs**: a sequencer with one session and one player, and what its play shows.
  * **Episodes**: what a line, an installation and a step leave behind.
  * **Comparison**: rigs that play alike go on alike, and lines make them play alike.
-/

namespace LedSequencer

/-! ### Rigs -/

/-- A sequencer with one session and one player. -/
structure Rig (σ : Type) where
  /-- The shared state. -/
  world : World σ
  /-- The session. -/
  session : Session
  /-- The player. -/
  player : Player

/-- An episode of a history, from its beginning to its end. -/
inductive Episode where
  /-- The session handles a line. -/
  | line (text : String)
  /-- A sequence is installed. -/
  | install (sequence : Sequence)
  /-- The player takes a step. -/
  | step

/-- What a step of play shows. -/
structure Observation where
  /-- The operation. -/
  operation : Operation
  /-- The place of the next operation. -/
  cursor : Nat
  /-- The sleeps and yields of the step. -/
  pacing : List Mark
  /-- The last write to each pin after the step. -/
  levels : List (Option (Level × Option Fault))

namespace Rig

variable {σ : Type}

/-- A rig before its first episode. -/
def start (map : ChannelMap) (driver : σ) : Rig σ where
  world := .start driver
  session := .start map
  player := .start .first

/-- The last write to each of some pins. -/
def levels (pins : List Pin) (r : Rig σ) : List (Option (Level × Option Fault)) :=
  pins.map fun pin => Attempt.lastWrite? pin r.world.calls

variable [PinDriver σ]

/-- The session handles a line. -/
def handle (line : String) (r : Rig σ) : Except CompileError Unit × Rig σ :=
  let handled := r.world.run (r.session.handleLine line)
  (handled.1.1, { r with world := handled.2, session := handled.1.2 })

/-- The player takes a step. -/
def step (r : Rig σ) : Operation × Rig σ :=
  let stepped := r.world.run r.player.step
  (stepped.1.1, { r with world := stepped.2, player := stepped.1.2 })

@[simp] theorem fst_handle (line : String) (r : Rig σ) :
    (r.handle line).1 = (r.world.run (r.session.handleLine line)).1.1 := by
  simp only [handle]

@[simp] theorem world_handle (line : String) (r : Rig σ) :
    (r.handle line).2.world = (r.world.run (r.session.handleLine line)).2 := by
  simp only [handle]

@[simp] theorem session_handle (line : String) (r : Rig σ) :
    (r.handle line).2.session = (r.world.run (r.session.handleLine line)).1.2 := by
  simp only [handle]

@[simp] theorem player_handle (line : String) (r : Rig σ) :
    (r.handle line).2.player = r.player := by
  simp only [handle]

@[simp] theorem fst_step (r : Rig σ) : r.step.1 = (r.world.run r.player.step).1.1 := by
  simp only [step]

@[simp] theorem world_step (r : Rig σ) : r.step.2.world = (r.world.run r.player.step).2 := by
  simp only [step]

@[simp] theorem session_step (r : Rig σ) : r.step.2.session = r.session := by
  simp only [step]

@[simp] theorem player_step (r : Rig σ) :
    r.step.2.player = (r.world.run r.player.step).1.2 := by
  simp only [step]

/-- Goes through an episode. -/
def episode (r : Rig σ) : Episode → Rig σ
  | .line text => (r.handle text).2
  | .install sequence => { r with world := (r.world.run (Activity.install sequence)).2 }
  | .step => r.step.2

/-- Goes through a history. -/
def after (history : List Episode) (r : Rig σ) : Rig σ := history.foldl episode r

/-- What so many steps of play show, one after the other. -/
def observe (pins : List Pin) : Nat → Rig σ → List Observation
  | 0, _ => []
  | more + 1, r =>
    let stepped := r.step
    { operation := stepped.1
      cursor := stepped.2.player.cursor
      pacing := stepped.2.world.pacing.drop r.world.pacing.length
      levels := stepped.2.levels pins } :: observe pins more stepped.2

end Rig

/-! ### Episodes -/

namespace Rig

variable {σ : Type}

/-- The player as it is once it has looked. -/
def current (r : Rig σ) : Player := r.player.adopt r.world.active

theorem id_current (r : Rig σ) : r.current.held.id = r.world.active.id := by
  unfold current
  by_cases h : r.world.active.id = r.player.held.id
  · rw [Player.adopt_of_eq h, h]
  · rw [Player.adopt_of_ne h]
    rfl

variable [PinDriver σ] {r : Rig σ}

/-- What a step does depends on the player as it is once it has looked, and so it is after it. -/
theorem passed_step (r : Rig σ) :
    r.step.1 = r.current.next ∧ r.step.2.current = r.current.advance ∧
      r.step.2.player = r.current.advance ∧
      r.world.Passed r.step.2.world r.current.effects := by
  obtain ⟨hanswer, hpassed, hactive⟩ := World.passed_step r.player r.world
  have hplayer : r.step.2.player = r.current.advance := by
    rw [player_step, hanswer]
    rfl
  have hcurrent : r.step.2.current = r.current.advance := by
    -- the player holds the active sequence now, and nothing else was installed
    unfold current
    rw [hplayer, world_step, hactive]
    apply Player.adopt_of_eq
    rw [Player.held_advance, id_current]
  refine ⟨?_, hcurrent, hplayer, ?_⟩
  · rw [fst_step, hanswer]
    rfl
  · rw [world_step]
    exact hpassed

/-- What a line leaves behind depends on the session. -/
theorem passed_handle (line : String) (r : Rig σ) :
    (r.handle line).1 = (r.session.afterLine line).1 ∧
      (r.handle line).2.session = (r.session.afterLine line).2 ∧
      r.world.Passed (r.handle line).2.world (r.session.effects line) := by
  obtain ⟨hanswer, hpassed⟩ := World.passed_handleLine r.session line r.world
  refine ⟨?_, ?_, ?_⟩
  · rw [fst_handle, hanswer]
  · rw [session_handle, hanswer]
  · rw [world_handle]
    exact hpassed

end Rig

/-! ### Comparison -/

namespace Rig

/-- What histories keep: the outputs are ready, the session has its map, and the player holds no
    sequence that is newer than the active one. -/
structure IsSound {σ : Type} [PinDriver σ] (map : ChannelMap) (r : Rig σ) : Prop where
  isReady : r.world.IsReady
  map_eq : r.session.map = map
  id_le : r.player.held.id ≤ r.world.active.id

section

variable {σ : Type} [PinDriver σ] {map : ChannelMap} {r : Rig σ}

theorem isSound_start (map : ChannelMap) {driver : σ} (hdriver : IsReliable driver) :
    (start map driver).IsSound map := ⟨⟨rfl, hdriver⟩, rfl, Nat.le_refl 0⟩

theorem IsSound.handle (h : r.IsSound map) (line : String) : (r.handle line).2.IsSound map := by
  obtain ⟨_, hsession, hpassed⟩ := r.passed_handle line
  refine ⟨(hpassed.of_isReady h.isReady).1, ?_, ?_⟩
  · rw [hsession]
    unfold Session.afterLine
    split
    · exact h.map_eq
    · exact h.map_eq
  · rw [player_handle]
    exact Nat.le_trans h.id_le hpassed.id_le

theorem IsSound.episode (h : r.IsSound map) (e : Episode) : (r.episode e).IsSound map := by
  cases e with
  | line text => exact h.handle text
  | install s =>
    have hpassed := World.passed_install s r.world
    exact ⟨(hpassed.of_isReady h.isReady).1, h.map_eq, Nat.le_trans h.id_le hpassed.id_le⟩
  | step =>
    obtain ⟨_, _, hplayer, hpassed⟩ := r.passed_step
    refine ⟨(hpassed.of_isReady h.isReady).1, ?_, ?_⟩
    · show r.step.2.session.map = map
      rw [session_step]
      exact h.map_eq
    · show r.step.2.player.held.id ≤ r.step.2.world.active.id
      rw [hplayer, Player.held_advance, id_current]
      exact hpassed.id_le

theorem IsSound.after (h : r.IsSound map) (history : List Episode) :
    (r.after history).IsSound map := by
  induction history generalizing r with
  | nil => exact h
  | cons e rest ih => exact ih (h.episode e)

/-- Whether a line is accepted depends on the selected LED only. -/
theorem IsSound.answer (h : r.IsSound map) (line : String) :
    (r.handle line).1 = (compile line map r.session.led).map fun _ => () := by
  obtain ⟨hanswer, _, _⟩ := r.passed_handle line
  rw [hanswer, ← h.map_eq]
  cases hcompiled : compile line r.session.map r.session.led with
  | ok compiled =>
    rw [Session.afterLine_of_ok hcompiled]
    rfl
  | error error =>
    rw [Session.afterLine_of_error hcompiled]
    rfl

/-- A rig whose line was accepted plays the new sequence from its beginning, with all pins low. -/
theorem IsSound.accepted (h : r.IsSound map) {line : String} {compiled : Compiled}
    (hcompiled : compile line map r.session.led = .ok compiled) :
    (r.handle line).2.session = { map, led := compiled.led } ∧
      (r.handle line).2.current.held.sequence = compiled.sequence ∧
      (r.handle line).2.current.cursor = 0 ∧
      (r.handle line).2.levels map.pins = map.pins.map fun _ => some (.low, none) := by
  obtain ⟨_, hsession, hpassed⟩ := r.passed_handle line
  have hmap := h.map_eq
  subst hmap
  have hactive : (r.handle line).2.world.active = r.world.active.next compiled.sequence := by
    rw [hpassed.active, Session.effects_of_ok hcompiled]
    rfl
  -- the new sequence has an identity that the player has not seen
  have hcurrent : (r.handle line).2.current = .start (r.world.active.next compiled.sequence) := by
    rw [current, player_handle, hactive]
    exact Player.adopt_of_ne (Nat.ne_of_gt (Nat.lt_succ_of_le h.id_le))
  refine ⟨?_, by rw [hcurrent]; rfl, by rw [hcurrent]; rfl, ?_⟩
  · rw [hsession, Session.afterLine_of_ok hcompiled]
  · have hcalls := (hpassed.of_isReady h.isReady).2
    rw [Session.calls_effects, List.map_map] at hcalls
    apply List.map_congr_left
    intro pin hpin
    have hlow : Attempt.lastWrite? pin (r.session.map.pins.map fun pin => (.set pin .low, none)) =
        some (.low, none) := Attempt.lastWrite?_of_lowered (by simp) (by simp) hpin
    rw [hcalls, Attempt.lastWrite?_append]
    exact congrArg (Option.or · _) hlow

end

variable {σ₁ σ₂ : Type} [PinDriver σ₁] [PinDriver σ₂] {r₁ : Rig σ₁} {r₂ : Rig σ₂}

/-- Two rigs play alike: they are at the same place of the same sequence, and their pins have the
    same levels. -/
structure Alike (pins : List Pin) (r₁ : Rig σ₁) (r₂ : Rig σ₂) : Prop where
  left : r₁.world.IsReady
  right : r₂.world.IsReady
  sequence : r₁.current.held.sequence = r₂.current.held.sequence
  cursor : r₁.current.cursor = r₂.current.cursor
  levels : r₁.levels pins = r₂.levels pins

/-- After calls that went well, the level of a pin is the one that they wrote, if they wrote one. -/
theorem levels_of_passed {σ : Type} [PinDriver σ] {r r' : Rig σ} {effects : List Action}
    (h : r.world.Passed r'.world effects) (hr : r.world.IsReady) (pins : List Pin) :
    r'.levels pins = pins.map fun pin =>
      (Attempt.lastWrite? pin
        ((effects.flatMap (Action.calls false)).map fun call => (call, none))).or
        (Attempt.lastWrite? pin r.world.calls) := by
  apply List.map_congr_left
  intro pin _
  rw [(h.of_isReady hr).2, Attempt.lastWrite?_append]

/-- Rigs that play alike take the same step, and play alike after it. -/
theorem Alike.step {pins : List Pin} (h : Alike pins r₁ r₂) :
    r₁.step.1 = r₂.step.1 ∧ r₁.step.2.player.cursor = r₂.step.2.player.cursor ∧
      (∃ pacing, r₁.step.2.world.pacing = r₁.world.pacing ++ pacing ∧
        r₂.step.2.world.pacing = r₂.world.pacing ++ pacing) ∧
      Alike pins r₁.step.2 r₂.step.2 := by
  obtain ⟨hop₁, hcurrent₁, hplayer₁, hpassed₁⟩ := r₁.passed_step
  obtain ⟨hop₂, hcurrent₂, hplayer₂, hpassed₂⟩ := r₂.passed_step
  have hnext : r₁.current.next = r₂.current.next := by
    rw [Player.next, Player.next, h.sequence, h.cursor]
  have heffects : r₁.current.effects = r₂.current.effects := by
    rw [Player.effects, Player.effects, hnext, h.sequence]
  have hadvance : r₁.current.advance.cursor = r₂.current.advance.cursor := by
    rw [Player.advance, Player.advance, hnext]
    split
    · rfl
    · show r₁.current.cursor + 1 = r₂.current.cursor + 1
      rw [h.cursor]
  refine ⟨by rw [hop₁, hop₂, hnext], by rw [hplayer₁, hplayer₂, hadvance],
    ⟨_, hpassed₁.pacing, heffects ▸ hpassed₂.pacing⟩, ?_⟩
  -- the step wrote the same on both sides, and the levels before it were the same
  refine ⟨(hpassed₁.of_isReady h.left).1, (hpassed₂.of_isReady h.right).1, ?_, ?_, ?_⟩
  · rw [hcurrent₁, hcurrent₂, Player.held_advance, Player.held_advance, h.sequence]
  · rw [hcurrent₁, hcurrent₂, hadvance]
  · have hlevels := List.map_inj_left.1 h.levels
    rw [levels_of_passed hpassed₁ h.left, levels_of_passed hpassed₂ h.right, heffects]
    apply List.map_congr_left
    intro pin hpin
    rw [hlevels pin hpin]

/-- Play of rigs that play alike shows the same, however long it goes on. -/
theorem Alike.observe {pins : List Pin} (h : Alike pins r₁ r₂) (steps : Nat) :
    r₁.observe pins steps = r₂.observe pins steps := by
  induction steps generalizing r₁ r₂ with
  | zero => rfl
  | succ more ih =>
    obtain ⟨hop, hcursor, ⟨pacing, hpacing₁, hpacing₂⟩, hnext⟩ := h.step
    rw [Rig.observe, Rig.observe]
    simp only [hop, hcursor, hpacing₁, hpacing₂, List.drop_left, hnext.levels, ih hnext]

/-- Rigs that accept the same line play alike after it. -/
theorem alike_of_accepted {map : ChannelMap} (h₁ : r₁.IsSound map) (h₂ : r₂.IsSound map)
    {line : String} {compiled : Compiled}
    (hcompiled₁ : compile line map r₁.session.led = .ok compiled)
    (hcompiled₂ : compile line map r₂.session.led = .ok compiled) :
    Alike map.pins (r₁.handle line).2 (r₂.handle line).2 := by
  obtain ⟨_, hsequence₁, hcursor₁, hlevels₁⟩ := h₁.accepted hcompiled₁
  obtain ⟨_, hsequence₂, hcursor₂, hlevels₂⟩ := h₂.accepted hcompiled₂
  exact
    { left := (h₁.handle line).isReady
      right := (h₂.handle line).isReady
      sequence := hsequence₁.trans hsequence₂.symm
      cursor := hcursor₁.trans hcursor₂.symm
      levels := hlevels₁.trans hlevels₂.symm }

/-- **Play does not depend on the past.** Two sequencers over the same map have been through any
    histories, with drivers that never fail. When they have the same LED selected and are given the
    same line, both accept it or both reject it for the same reason. When they accept it, their
    sessions are the same and all pins are low, and the steps of play that follow show the same
    operations, places, sleeps, yields and levels, however many there are. -/
theorem same_play_after_line (map : ChannelMap) {driver₁ : σ₁} {driver₂ : σ₂}
    (hdriver₁ : IsReliable driver₁) (hdriver₂ : IsReliable driver₂)
    (history₁ history₂ : List Episode)
    (hled : ((start map driver₁).after history₁).session.led =
      ((start map driver₂).after history₂).session.led) (line : String) :
    let handled₁ := ((start map driver₁).after history₁).handle line
    let handled₂ := ((start map driver₂).after history₂).handle line
    handled₁.1 = handled₂.1 ∧
      (handled₁.1 = .ok () →
        handled₁.2.session = handled₂.2.session ∧
        handled₁.2.levels map.pins = (map.pins.map fun _ => some (.low, none)) ∧
        handled₂.2.levels map.pins = (map.pins.map fun _ => some (.low, none)) ∧
        ∀ steps, handled₁.2.observe map.pins steps = handled₂.2.observe map.pins steps) := by
  -- all that matters of the histories is that they keep the rigs sound
  have hsound₁ := (isSound_start map hdriver₁).after history₁
  have hsound₂ := (isSound_start map hdriver₂).after history₂
  generalize (start map driver₁).after history₁ = r₁ at hled hsound₁
  generalize (start map driver₂).after history₂ = r₂ at hled hsound₂
  intro handled₁ handled₂
  have hanswer : handled₁.1 = handled₂.1 := by
    rw [hsound₁.answer, hsound₂.answer, hled]
  refine ⟨hanswer, fun haccepted => ?_⟩
  cases hcompiled : compile line map r₁.session.led with
  | error error =>
    rw [hsound₁.answer, hcompiled] at haccepted
    cases haccepted
  | ok compiled =>
    have hcompiled₂ := hcompiled
    rw [hled] at hcompiled₂
    obtain ⟨hsession₁, _, _, hlevels₁⟩ := hsound₁.accepted hcompiled
    obtain ⟨hsession₂, _, _, hlevels₂⟩ := hsound₂.accepted hcompiled₂
    have halike := alike_of_accepted hsound₁ hsound₂ hcompiled hcompiled₂
    exact ⟨hsession₁.trans hsession₂.symm, hlevels₁, hlevels₂, halike.observe⟩

/-- One sequencer is new. The other one has left the pin of its map on, in the midst of a sequence
    that waits, and holds an older sequence than the active one. -/
def used : List Episode := [.line "R 5s R", .step, .step, .install .idle]

theorem same_play_after_line_used :
    let fresh := start Ensemble.single Hardware.nothing
    let handled₁ := (fresh.after []).handle "R 10s"
    let handled₂ := (fresh.after used).handle "R 10s"
    IsReliable Hardware.nothing ∧
      (fresh.after []).session.led = (fresh.after used).session.led ∧ handled₁.1 = .ok () ∧
      (fresh.after used).levels Ensemble.single.pins = [some (.high, none)] ∧
      handled₂.2.levels Ensemble.single.pins = [some (.low, none)] ∧
      ∀ steps, handled₁.2.observe Ensemble.single.pins steps =
        handled₂.2.observe Ensemble.single.pins steps := by
  intro fresh handled₁ handled₂
  have hdriver := isReliable_nothing
  have hled : (fresh.after []).session.led = (fresh.after used).session.led := by decide +kernel
  have haccepted : handled₁.1 = .ok () := by decide +kernel
  have hhigh : (fresh.after used).levels Ensemble.single.pins = [some (.high, none)] := by
    decide +kernel
  obtain ⟨_, hsame⟩ := same_play_after_line Ensemble.single hdriver hdriver [] used hled "R 10s"
  obtain ⟨_, _, hlevels, hobserve⟩ := hsame haccepted
  exact ⟨hdriver, hled, haccepted, hhigh, hlevels, hobserve⟩

end Rig

end LedSequencer
