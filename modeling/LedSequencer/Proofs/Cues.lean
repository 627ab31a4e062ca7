import LedSequencer.Proofs.Rests
import LedSequencer.Rehearsal.Play

/-! # Cues that keep play alive

  A script brings cues at the ticks of a clock. When none of them makes an idle sequence
  active, a player always has something to play, and what the ticks do to the shared
  state can be told from the script alone (`tick_of_areLively`).

  * **Successions**: what becomes of the active sequence, and of a player next to it.
  * **Scripts**: the cues of a tick, which of them close, and which keep play alive.
  * **Ticks**: what a cue and what a tick do.
-/

namespace LedSequencer

/-! ### Successions -/

namespace Published

/-- An active sequence is followed by another one when sequences are made active in order, none of
    them idle. -/
def LeadsTo (a b : Published) : Prop := ∃ qs : List Sequence, .idle ∉ qs ∧ b = qs.foldl next a

variable {a b c : Published}

theorem LeadsTo.refl (a : Published) : a.LeadsTo a := ⟨[], by simp, rfl⟩

theorem LeadsTo.trans (h : a.LeadsTo b) (h' : b.LeadsTo c) : a.LeadsTo c := by
  obtain ⟨qs, hqs, rfl⟩ := h
  obtain ⟨qs', hqs', rfl⟩ := h'
  refine ⟨qs ++ qs', ?_, List.foldl_append.symm⟩
  rw [List.mem_append, not_or]
  exact ⟨hqs, hqs'⟩

theorem LeadsTo.next (a : Published) {s : Sequence} (hs : s ≠ .idle) : a.LeadsTo (a.next s) := by
  refine ⟨[s], ?_, rfl⟩
  rw [List.mem_singleton]
  exact hs.symm

/-- As long as nothing idle is made active, nothing idle is active. -/
theorem LeadsTo.ne_idle (h : a.LeadsTo b) (ha : a.sequence ≠ .idle) : b.sequence ≠ .idle := by
  obtain ⟨qs, hqs, rfl⟩ := h
  induction qs generalizing a with
  | nil => exact ha
  | cons s rest ih =>
    rw [List.mem_cons, not_or] at hqs
    have hs : (a.next s).sequence ≠ .idle := fun h => hqs.1 h.symm
    exact ih hs hqs.2

end Published

namespace Player

/-- What can become of a player and the active sequence: the player begins with the active sequence;
    a sequence is made active, at a step of the player or between two; the player takes a step. -/
inductive IsReachableWith : Player → Published → Prop where
  | start (active : Published) : IsReachableWith (.start active) active
  | publish {p : Player} {active : Published} (h : IsReachableWith p active) (s : Sequence) :
      IsReachableWith p (active.next s)
  | step {p : Player} {active : Published} (h : IsReachableWith p active) :
      IsReachableWith (p.adopt active).advance active

variable {p : Player} {active : Published}

theorem IsReachableWith.isReachable (h : p.IsReachableWith active) : p.IsReachable := by
  induction h with
  | start active => exact .start active
  | publish _ _ ih => exact ih
  | @step p active _ ih => exact ih.step active

theorem IsReachableWith.leadsTo {active' : Published} (h : p.IsReachableWith active)
    (hnext : active.LeadsTo active') : p.IsReachableWith active' := by
  obtain ⟨qs, -, rfl⟩ := hnext
  induction qs generalizing active with
  | nil => exact h
  | cons s rest ih => exact ih (h.publish s)

/-- A player that looks takes up what is active, unless it holds it already. -/
theorem held_adopt_of_eq_or_lt (h : p.held = active ∨ p.held.id < active.id) :
    (p.adopt active).held = active := by
  rcases h with heq | hlt
  · rw [adopt_of_eq (congrArg Published.id heq.symm), heq]
  · rw [adopt_of_ne (by omega)]
    rfl

/-- A player holds the active sequence or one that was active before. -/
theorem IsReachableWith.held_eq_or_lt (h : p.IsReachableWith active) :
    p.held = active ∨ p.held.id < active.id := by
  induction h with
  | start active => exact .inl rfl
  | @publish p active _ s ih =>
    right
    show p.held.id < active.id + 1
    rcases ih with heq | hlt
    · rw [heq]
      exact Nat.lt_succ_self _
    · omega
  | @step p active _ ih =>
    left
    rw [held_advance]
    exact held_adopt_of_eq_or_lt ih

theorem IsReachableWith.held_adopt (h : p.IsReachableWith active) :
    (p.adopt active).held = active := held_adopt_of_eq_or_lt h.held_eq_or_lt

/-- A player that holds an idle sequence while another one is active will take that one up. -/
theorem IsReachableWith.id_ne (h : p.IsReachableWith active) (hactive : active.sequence ≠ .idle)
    (hidle : p.held.sequence = .idle) : active.id ≠ p.held.id := by
  intro hid
  rcases h.held_eq_or_lt with heq | hlt
  · rw [heq] at hidle
    exact hactive hidle
  · omega

end Player

/-! ### Scripts -/

namespace Cue

/-- Whether a cue closes the sequencer. -/
def closes : Cue → Bool
  | .shutDown | .close => true
  | .install _ | .line _ | .refuse _ _ => false

/-- A cue makes no idle sequence active, with the session as it is then. -/
def IsLively (s : Session) : Cue → Prop
  | .install ops => Sequence.ofList ops ≠ .idle
  | .line text => ∀ c, compile text s.map s.led = .ok c → c.sequence ≠ .idle
  | .shutDown | .close | .refuse _ _ => True

/-- The session after a cue. -/
def sessionAfter (s : Session) : Cue → Session
  | .line text => (s.afterLine text).2
  | .install _ | .shutDown | .close | .refuse _ _ => s

end Cue

/-- Cues come in order, and none of them makes an idle sequence active. -/
def AreLively : Session → List Cue → Prop
  | _, [] => True
  | s, cue :: rest => cue.IsLively s ∧ AreLively (cue.sessionAfter s) rest

theorem areLively_append {s : Session} {first second : List Cue} :
    AreLively s (first ++ second) ↔
      AreLively s first ∧ AreLively (first.foldl Cue.sessionAfter s) second := by
  induction first generalizing s with
  | nil => simp [AreLively]
  | cons cue rest ih =>
    rw [List.cons_append, AreLively, AreLively, ih, List.foldl_cons, and_assoc]

/-- The cues that a script has for a tick, in order. -/
def due (script : List TimedCue) (n : Nat) : List Cue :=
  (script.filter fun timed => timed.tick = n).map TimedCue.cue

/-- The cues that a script has for so many ticks after the first `n`, in the order in which they
    come. -/
def coming (script : List TimedCue) (n : Nat) : Nat → List Cue
  | 0 => []
  | more + 1 => due script (n + 1) ++ coming script (n + 1) more

/-- Whether the sequencer is told to close at a tick. -/
def closesAt (script : List TimedCue) (last n : Nat) : Bool :=
  (due script n).any Cue.closes || n == last

/-! ### Ticks -/

namespace Performance

/-- What a cue that is lively does to a performance. -/
theorem cue_of_isLively {c : Cue} {p : Performance} (h : c.IsLively p.session) :
    (cue c p).ticks = p.ticks ∧ (cue c p).session = c.sessionAfter p.session ∧
      (cue c p).world.closing = (p.world.closing || c.closes) ∧
      p.world.active.LeadsTo (cue c p).world.active := by
  cases c with
  | install ops =>
    have hpassed := World.passed_install (.ofList ops) p.world
    have hworld : (cue (.install ops) p).world =
        (p.world.run (Activity.install (.ofList ops))).2 := rfl
    rw [hworld, hpassed.closing, hpassed.active]
    exact ⟨rfl, rfl, (Bool.or_false _).symm, .next _ h⟩
  | line text =>
    obtain ⟨hanswer, hpassed⟩ := World.passed_handleLine p.session text p.world
    have hworld : (cue (.line text) p).world = (p.world.run (p.session.handleLine text)).2 := rfl
    have hsession : (cue (.line text) p).session = (p.session.afterLine text).2 :=
      congrArg Prod.snd hanswer
    rw [hworld, hsession, hpassed.closing, hpassed.active]
    refine ⟨rfl, rfl, (Bool.or_false _).symm, ?_⟩
    cases hcompile : compile text p.session.map p.session.led with
    | ok compiled =>
      rw [Session.effects_of_ok hcompile]
      exact .next _ (h compiled hcompile)
    | error error =>
      -- a rejected line leaves the active sequence as it is
      rw [Session.effects_of_error hcompile]
      exact .refl _
  | shutDown =>
    obtain ⟨_, hclosing, _, hactive, _⟩ := World.run_shutDown p.session.map.pins p.world
    have hworld : (cue .shutDown p).world =
        (p.world.run (Activity.shutDown p.session.map.pins)).2 := rfl
    rw [hworld, hclosing, hactive]
    exact ⟨rfl, rfl, (Bool.or_true _).symm, .refl _⟩
  | close => exact ⟨rfl, rfl, (Bool.or_true _).symm, .refl _⟩
  | refuse sets configures => exact ⟨rfl, rfl, (Bool.or_false _).symm, .refl _⟩

/-- What lively cues do one after the other. -/
theorem cues_of_areLively {cs : List Cue} {p : Performance} (h : AreLively p.session cs) :
    let after := cs.foldl (fun p c => cue c p) p
    after.ticks = p.ticks ∧ after.session = cs.foldl Cue.sessionAfter p.session ∧
      after.world.closing = (p.world.closing || cs.any Cue.closes) ∧
      p.world.active.LeadsTo after.world.active := by
  induction cs generalizing p with
  | nil => exact ⟨rfl, rfl, (Bool.or_false _).symm, .refl _⟩
  | cons c rest ih =>
    obtain ⟨hfirst, hrest⟩ := h
    obtain ⟨hticks, hsession, hclosing, hactive⟩ := cue_of_isLively hfirst
    rw [← hsession] at hrest
    obtain ⟨hticks', hsession', hclosing', hactive'⟩ := ih hrest
    refine ⟨hticks'.trans hticks, ?_, ?_, hactive.trans hactive'⟩
    · rw [List.foldl_cons, List.foldl_cons, ← hsession]
      exact hsession'
    · rw [List.foldl_cons, hclosing', hclosing, List.any_cons, Bool.or_assoc]

/-- What a tick with lively cues does. -/
theorem tick_of_areLively {script : List TimedCue} {p : Performance}
    (h : AreLively p.session (due script (p.ticks + 1))) (last : Nat) :
    let after := tick script last p
    after.ticks = p.ticks + 1 ∧
      after.session = (due script (p.ticks + 1)).foldl Cue.sessionAfter p.session ∧
      after.world.closing = (p.world.closing || closesAt script last (p.ticks + 1)) ∧
      p.world.active.LeadsTo after.world.active := by
  let counted : Performance := { p with ticks := p.ticks + 1 }
  let cued := (due script (p.ticks + 1)).foldl (fun p c => cue c p) counted
  have hcued : tick script last p = if p.ticks + 1 = last then cue .close cued else cued := by
    unfold tick
    simp only [cued, counted, due, List.foldl_map]
  obtain ⟨hticks, hsession, hclosing, hactive⟩ := cues_of_areLively (p := counted) h
  intro after
  have hafter : after = if p.ticks + 1 = last then cue .close cued else cued := hcued
  rw [hafter]
  unfold closesAt
  by_cases hlast : p.ticks + 1 = last
  · rw [if_pos hlast]
    refine ⟨hticks, hsession, ?_, hactive⟩
    simp [cue, hlast]
  · rw [if_neg hlast]
    refine ⟨hticks, hsession, ?_, hactive⟩
    rw [beq_false_of_ne hlast, Bool.or_false]
    exact hclosing

end Performance

end LedSequencer
