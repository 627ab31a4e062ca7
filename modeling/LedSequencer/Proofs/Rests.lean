import LedSequencer.Proofs.Repetition
import Mathlib.Logic.Function.Iterate

/-! # Rests

  The loop of a player lets an idle player rest until another sequence is active, where
  bare steps would go on rewinding. Both play the same, whatever is installed between
  their turns (`rounds_play_as_steps`); the steps only yield more often.

  * **Reach**: what can become of a player.
  * **Timetables**: sequences that are installed between the turns of a player.
  * **Turns**: a round is a step, or a rest.
  * **Lag**: two states that differ in their yields alone.
-/

namespace LedSequencer

/-! ### Reach -/

namespace Player

/-- What can become of a player: it begins with some sequence, and takes steps, whichever sequence
    is active at each of them. -/
inductive IsReachable : Player → Prop where
  | start (active : Published) : IsReachable (.start active)
  | step {p : Player} (h : IsReachable p) (active : Published) :
      IsReachable (p.adopt active).advance

theorem cursor_adopt_lt {p : Player} (h : p.cursor < p.held.sequence.length) (active : Published) :
    (p.adopt active).cursor < (p.adopt active).held.sequence.length := by
  by_cases heq : active.id = p.held.id
  · rw [adopt_of_eq heq]
    exact h
  · rw [adopt_of_ne heq]
    exact active.sequence.length_pos

/-- A player is always at a place of the sequence it holds. -/
theorem IsReachable.cursor_lt {p : Player} (h : p.IsReachable) :
    p.cursor < p.held.sequence.length := by
  induction h with
  | start active => exact active.sequence.length_pos
  | step _ active ih =>
    rw [held_advance]
    exact cursor_advance_lt (cursor_adopt_lt ih active)

/-- Whether a player has nothing to play: what it holds is idle, and it is still active. -/
def rests (p : Player) (active : Published) : Bool :=
  p.held.sequence.isEmpty && active.id == p.held.id

end Player

/-! ### Timetables -/

/-- Whether a round of a player begins with this action. -/
def Action.beginsRound : Action → Bool
  | .isClosing => true
  | _ => false

/-- Whether a step of a player begins with this action. -/
def Action.beginsStep : Action → Bool
  | .load => true
  | _ => false

/-- Whoever only passes time begins no turn. -/
theorem Action.begins_of_isPassing {a : Action} (ha : a.isPassing = true) :
    a.beginsRound = false ∧ a.beginsStep = false := by
  cases a with
  | wake | sleep | yield | report => exact ⟨rfl, rfl⟩
  | load | publish | await | isClosing | close | bank => cases ha

/-- The shared state, and the sequences that are to be installed before each of the next turns of a
    player. -/
structure Timetable (σ : Type) where
  /-- The shared state. -/
  world : World σ
  /-- For each turn, the sequences in the order of their installation. -/
  due : List (List Sequence)

namespace Timetable

variable {σ α : Type} [PinDriver σ]

/-- The sequences that are due are installed. -/
def arrive (t : Timetable σ) : Timetable σ where
  world := (t.due.headD []).foldl (fun w s => (w.run (Activity.install s)).2) t.world
  due := t.due.tail

/-- Carries out an action of the player. If a turn begins with it, what is due comes first. -/
def act (begins : Action → Bool) (a : Action) (t : Timetable σ) : a.Reply × Timetable σ :=
  let found := if begins a then t.arrive else t
  let acted := found.world.act a
  (acted.1, { found with world := acted.2 })

/-- So many rounds of the loop of a player. -/
def loop (k : Nat) (p : Player) (t : Timetable σ) : Player × Timetable σ :=
  (p.rounds k).run (act Action.beginsRound) t

/-- So many steps of a player. -/
def walk (k : Nat) (p : Player) (t : Timetable σ) : (List Operation × Player) × Timetable σ :=
  (p.steps k).run (act Action.beginsStep) t

/-- Within a turn nothing is due. -/
theorem run_within {begins : Action → Bool} {promise : α → Prop} {d : Activity α}
    (hd : d.Follows (.avoiding begins) promise) (t : Timetable σ) :
    d.run (act begins) t = ((t.world.run d).1, { t with world := (t.world.run d).2 }) := by
  induction d generalizing t with
  | done a => rfl
  | ask a next ih =>
    obtain ⟨hwithin, hnext⟩ := hd
    have hact : act begins a t = ((t.world.act a).1, { t with world := (t.world.act a).2 }) := by
      have hwithin : begins a = false := hwithin
      rw [act, hwithin]
      rfl
    rw [Dialogue.run_ask, hact]
    exact ih _ (hnext _ trivial) _

/-! ### Turns -/

/-- A step of the player on what has arrived. -/
def step (p : Player) (found : Timetable σ) : Player × Timetable σ :=
  ((found.world.run p.step).1.2, { found with world := (found.world.run p.step).2 })

/-- What a turn of bare steps comes to. -/
def walkOnce (turn : Player × Timetable σ) : Player × Timetable σ := turn.2.arrive.step turn.1

/-- What a turn of the loop comes to. -/
def loopOnce (turn : Player × Timetable σ) : Player × Timetable σ :=
  if turn.1.rests turn.2.arrive.world.active then (turn.1, turn.2.arrive)
  else turn.2.arrive.step turn.1

theorem run_step (p : Player) (t : Timetable σ) :
    p.step.run (act Action.beginsStep) t =
      ((t.arrive.world.run p.step).1,
        { t.arrive with world := (t.arrive.world.run p.step).2 }) := by
  have hlenient : (Conduct.avoiding Action.beginsStep).Lenient :=
    Conduct.lenient_avoiding fun _ ha => (Action.begins_of_isPassing ha).2
  -- the player looks when the sequences have arrived, and goes on alone
  have hlook : p.step.run (act Action.beginsStep) t =
      (p.adopt t.arrive.world.active).goOn.run (act Action.beginsStep) t.arrive := rfl
  rw [hlook, run_within (Player.follows_goOn hlenient fun _ _ _ => rfl)]
  rfl

end Timetable

namespace World

variable {σ : Type} [PinDriver σ] {w : World σ} {p : Player}

/-- The player rests if it has nothing to play, and takes a step if it has. -/
theorem run_playOn (p : Player) (w : World σ) :
    w.run p.playOn = if p.rests w.active then (some p, w)
      else (some (w.run p.step).1.2, (w.run p.step).2) := by
  have hstep : w.run (p.step >>= fun stepped => pure (some stepped.2)) =
      (some (w.run p.step).1.2, (w.run p.step).2) := Dialogue.run_bind ..
  unfold Player.playOn Player.rests
  cases p.held.sequence.isEmpty with
  | false => exact hstep
  | true =>
    -- the wait is over at once, and says whether another sequence is active
    show (w.run (if (w.active.id != p.held.id) then _ else _)) = _
    rw [Bool.true_and, bne]
    cases w.active.id == p.held.id with
    | false => exact hstep
    | true => rfl

/-- A step of a player that has nothing to play rewinds and yields. -/
theorem run_step_of_rests (hp : p.IsReachable) (hrests : p.rests w.active = true) :
    w.run p.step = ((.rewind, p), w.mark .yielded) := by
  obtain ⟨hempty, hid⟩ := Bool.and_eq_true_iff.1 hrests
  have hidle : p.held.sequence = .idle := (Sequence.isEmpty_iff _).1 hempty
  have hadopt : p.adopt w.active = p := Player.adopt_of_eq (beq_iff_eq.1 hid)
  have hcursor : p.cursor = 0 := by
    have hlt := hp.cursor_lt
    rw [hidle] at hlt
    exact Nat.lt_one_iff.1 hlt
  have hnext : p.next = .rewind := by
    rw [Player.next, hidle]
    rfl
  have hadvance : p.advance = p := by
    rw [Player.advance_of_rewind hnext, ← hcursor]
  show w.run (p.adopt w.active).goOn = _
  rw [hadopt, Player.goOn, hnext, hidle, hadvance]
  rfl

end World

namespace Timetable

variable {σ : Type} [PinDriver σ]

/-- Arrivals make sequences active, and do nothing else. -/
theorem passed_arrive (t : Timetable σ) :
    World.Passed t.world t.arrive.world ((t.due.headD []).map .publish) := by
  obtain ⟨w, due⟩ := t
  show World.Passed w ((due.headD []).foldl _ w) ((due.headD []).map .publish)
  generalize due.headD [] = sequences
  induction sequences generalizing w with
  | nil => exact .refl w
  | cons s rest ih => exact (World.passed_install s w).trans (ih _)

/-- Arrivals make no call, and neither sleep nor yield. -/
theorem untouched_arrive (t : Timetable σ) :
    t.arrive.world.calls = t.world.calls ∧ t.arrive.world.pacing = t.world.pacing := by
  obtain ⟨_, _, _, ⟨attempts, hcalls, hmap, _⟩, hpacing⟩ := t.passed_arrive
  have hnone : t.world.letThrough ((t.due.headD []).map .publish) = [] := by
    rw [World.letThrough, List.flatMap_map, List.flatMap_eq_nil_iff]
    exact fun _ _ => rfl
  have hstill : ((t.due.headD []).map Action.publish).flatMap Action.pacing = [] := by
    rw [List.flatMap_map, List.flatMap_eq_nil_iff]
    exact fun _ _ => rfl
  rw [hnone, List.map_eq_nil_iff] at hmap
  rw [hcalls, hmap, hpacing, hstill, List.append_nil, List.append_nil]
  exact ⟨rfl, rfl⟩

theorem closing_loopOnce (turn : Player × Timetable σ) :
    (loopOnce turn).2.world.closing = turn.2.world.closing := by
  unfold loopOnce
  split
  · exact turn.2.passed_arrive.closing
  · exact (World.passed_step turn.1 _).2.1.closing.trans turn.2.passed_arrive.closing

theorem run_round {p : Player} {t : Timetable σ} (hopen : t.world.closing = false) :
    p.round.run (act Action.beginsRound) t =
      (some (loopOnce (p, t)).1, (loopOnce (p, t)).2) := by
  have hlenient : (Conduct.avoiding Action.beginsRound).Lenient :=
    Conduct.lenient_avoiding fun _ ha => (Action.begins_of_isPassing ha).1
  have hasked : p.round.run (act Action.beginsRound) t =
      (if t.arrive.world.closing then pure none else p.playOn).run (act Action.beginsRound)
        t.arrive := rfl
  rw [hasked, t.passed_arrive.closing, hopen, if_neg Bool.false_ne_true,
    run_within (Player.follows_playOn hlenient rfl rfl fun _ _ => rfl), World.run_playOn, loopOnce]
  split <;> rfl

/-- The loop is one turn after the other. -/
theorem loop_eq_iterate {p : Player} {t : Timetable σ} (hopen : t.world.closing = false) (k : Nat) :
    t.loop k p = loopOnce^[k] (p, t) := by
  induction k generalizing p t with
  | zero => rfl
  | succ k ih =>
    have hstill : (loopOnce (p, t)).2.world.closing = false := (closing_loopOnce (p, t)).trans hopen
    rw [Function.iterate_succ_apply, ← ih hstill, loop, Player.rounds, Dialogue.run_bind,
      run_round hopen]
    rfl

theorem walk_eq_iterate (p : Player) (t : Timetable σ) (k : Nat) :
    ((t.walk k p).1.2, (t.walk k p).2) = walkOnce^[k] (p, t) := by
  induction k generalizing p t with
  | zero => rfl
  | succ k ih =>
    rw [Function.iterate_succ_apply, walkOnce, step, ← ih, walk, Player.steps, Dialogue.run_bind,
      run_step, Dialogue.run_bind]
    rfl

end Timetable

/-! ### Lag -/

namespace World

variable {σ α : Type}

/-- Two states agree, the sleeps included, but the first has so many more yields. -/
structure Lags (n : Nat) (w w' : World σ) : Prop where
  agrees : Agrees w w'
  /-- The sleeps are the same. -/
  sleeps : w.pacing.filterMap Mark.sleep? = w'.pacing.filterMap Mark.sleep?
  /-- The yields are more. -/
  yields : w.pacing.countP Mark.isYield = w'.pacing.countP Mark.isYield + n

variable {n : Nat} {w w' : World σ}

theorem Lags.refl (w : World σ) : Lags 0 w w := ⟨.refl w, rfl, rfl⟩

/-- The first state yields once more. -/
theorem Lags.yield (h : Lags n w w') : Lags (n + 1) (w.mark .yielded) w' := by
  refine ⟨h.agrees.mark rfl, ?_, ?_⟩
  · rw [pacing_mark, List.filterMap_append, ← h.sleeps]
    exact List.append_nil _
  · rw [pacing_mark, List.countP_append, h.yields]
    rfl

variable [PinDriver σ]

theorem Lags.act (h : Lags n w w') (a : Action) :
    (w.act a).1 = (w'.act a).1 ∧ Lags n (w.act a).2 (w'.act a).2 := by
  obtain ⟨hreply, hagrees⟩ := h.agrees.act a
  refine ⟨hreply, hagrees, ?_, ?_⟩
  · rw [pacing_act, pacing_act, List.filterMap_append, List.filterMap_append, h.sleeps]
  · rw [pacing_act, pacing_act, List.countP_append, List.countP_append, h.yields]
    exact Nat.add_right_comm ..

/-- Whatever is done to both states keeps the lag as it is. -/
theorem Lags.run (h : Lags n w w') (d : Activity α) :
    (w.run d).1 = (w'.run d).1 ∧ Lags n (w.run d).2 (w'.run d).2 := by
  induction d generalizing w w' with
  | done a => exact ⟨rfl, h⟩
  | ask a next ih =>
    obtain ⟨hreply, hlags⟩ := h.act a
    rw [run_ask, run_ask, hreply]
    exact ih _ hlags

end World

namespace Timetable

variable {σ : Type} [PinDriver σ] {n : Nat}

/-- The same arrives on both sides. -/
theorem lags_arrive {t t' : Timetable σ} (h : World.Lags n t.world t'.world)
    (hdue : t.due = t'.due) : World.Lags n t.arrive.world t'.arrive.world := by
  obtain ⟨w, due⟩ := t
  obtain ⟨w', due'⟩ := t'
  obtain rfl : due = due' := hdue
  show World.Lags n ((due.headD []).foldl _ w) ((due.headD []).foldl _ w')
  generalize due.headD [] = sequences
  induction sequences generalizing w w' with
  | nil => exact h
  | cons s rest ih => exact ih _ _ (h.run (Activity.install s)).2

/-- What bare steps have come to, next to what the loop has come to. -/
structure Trails (n : Nat) (stepped looped : Player × Timetable σ) : Prop where
  /-- Both have the same player. -/
  player : stepped.1 = looped.1
  isReachable : looped.1.IsReachable
  /-- The same is still due. -/
  due : stepped.2.due = looped.2.due
  lags : World.Lags n stepped.2.world looped.2.world

/-- Whether the next round of the loop is a rest. -/
def restsNext (turn : Player × Timetable σ) : Bool :=
  turn.1.rests turn.2.arrive.world.active

/-- A turn of both. Where the loop rests, the steps yield. -/
theorem Trails.turn {stepped looped : Player × Timetable σ} (h : Trails n stepped looped) :
    Trails (n + if restsNext looped then 1 else 0) (walkOnce stepped) (loopOnce looped) := by
  obtain ⟨p, t⟩ := stepped
  obtain ⟨p', t'⟩ := looped
  obtain rfl : p = p' := h.player
  have harrive : World.Lags n t.arrive.world t'.arrive.world := lags_arrive h.lags h.due
  have hdue : t.arrive.due = t'.arrive.due := congrArg List.tail h.due
  by_cases hrests : p.rests t'.arrive.world.active = true
  · -- the step rewinds an idle player that is at its beginning
    have hrests' : p.rests t.arrive.world.active = true := harrive.agrees.active ▸ hrests
    have hstep := World.run_step_of_rests h.isReachable hrests'
    rw [loopOnce, restsNext, if_pos hrests, if_pos hrests, walkOnce, step, hstep]
    exact ⟨rfl, h.isReachable, hdue, harrive.yield⟩
  · have hsame := harrive.run p.step
    rw [loopOnce, restsNext, if_neg hrests, if_neg hrests, walkOnce, step, step]
    refine ⟨congrArg Prod.snd hsame.1, ?_, hdue, hsame.2⟩
    rw [(World.passed_step p _).1]
    exact h.isReachable.step _

theorem trails_iterate {p : Player} (hp : p.IsReachable) (t : Timetable σ) (k : Nat) :
    Trails ((List.range k).countP fun i => restsNext (loopOnce^[i] (p, t)))
      (walkOnce^[k] (p, t)) (loopOnce^[k] (p, t)) := by
  induction k with
  | zero => exact ⟨rfl, hp, rfl, .refl _⟩
  | succ k ih =>
    rw [List.range_succ, List.countP_append, List.countP_singleton, Function.iterate_succ_apply',
      Function.iterate_succ_apply']
    exact ih.turn

/-- **Resting.** Any player plays for a number of rounds of its loop, or takes as many steps, while
    sequences are installed before its turns as any timetable says, and nobody closes. Both leave
    the same player, with the same driver calls, answered alike, and the same sleeps, in states
    that are the same as to the driver, the seal, the active sequence and the closing flag. The
    steps yield once more for each round that found the player with nothing to play. In such a
    round nothing happens but what is installed: the loop leaves the player as it is, makes no call
    and neither sleeps nor yields. -/
theorem rounds_play_as_steps {p : Player} (hp : p.IsReachable) {t : Timetable σ}
    (hopen : t.world.closing = false) (k : Nat) :
    let looped := t.loop k p
    let stepped := t.walk k p
    let restedAt := fun i => restsNext (t.loop i p)
    stepped.1.2 = looped.1 ∧
      World.Agrees stepped.2.world looped.2.world ∧
      stepped.2.world.pacing.filterMap Mark.sleep? =
        looped.2.world.pacing.filterMap Mark.sleep? ∧
      stepped.2.world.pacing.countP Mark.isYield =
        looped.2.world.pacing.countP Mark.isYield + (List.range k).countP restedAt ∧
      ∀ i, restedAt i = true →
        t.loop (i + 1) p = ((t.loop i p).1, (t.loop i p).2.arrive) ∧
        (t.loop (i + 1) p).2.world.calls = (t.loop i p).2.world.calls ∧
        (t.loop (i + 1) p).2.world.pacing = (t.loop i p).2.world.pacing := by
  intro looped stepped restedAt
  have hloop : ∀ i, t.loop i p = loopOnce^[i] (p, t) := loop_eq_iterate hopen
  have htrails := trails_iterate hp t k
  rw [← walk_eq_iterate, ← hloop] at htrails
  simp only [← hloop] at htrails
  refine ⟨htrails.player, htrails.lags.agrees, htrails.lags.sleeps, htrails.lags.yields, ?_⟩
  intro i hrested
  have hround : t.loop (i + 1) p = ((t.loop i p).1, (t.loop i p).2.arrive) := by
    rw [hloop, Function.iterate_succ_apply', ← hloop]
    exact if_pos hrested
  obtain ⟨hcalls, hpacing⟩ := (t.loop i p).2.untouched_arrive
  rw [hround]
  exact ⟨rfl, hcalls, hpacing⟩

/-- The idle sequence is installed, one that blinks while the idle one is due as well, and then the
    idle one again. -/
def blinking : Timetable Hardware where
  world := World.start Hardware.nothing
  due := [[], [.idle], [], [], [.idle, blink], [], [], [.idle], []]

/-- The player rests, takes up the idle sequence, rests twice, blinks once, finds the idle sequence
    again and rests. -/
theorem rounds_play_as_steps_blinking :
    (Player.start .first).IsReachable ∧ blinking.world.closing = false ∧
      (blinking.walk 9 (.start .first)).1.2 = (blinking.loop 9 (.start .first)).1 ∧
      (blinking.loop 9 (.start .first)).1 = .start { id := 4, sequence := .idle } ∧
      (blinking.walk 9 (.start .first)).2.world.calls =
        (blinking.loop 9 (.start .first)).2.world.calls ∧
      (blinking.loop 9 (.start .first)).2.world.calls.map Prod.fst =
        [.set ⟨4⟩ .high, .set ⟨4⟩ .low] ∧
      (blinking.loop 9 (.start .first)).2.world.pacing.countP Mark.isYield = 2 ∧
      (blinking.walk 9 (.start .first)).2.world.pacing.countP Mark.isYield = 6 := by
  have hp : (Player.start .first).IsReachable := .start .first
  have hopen : blinking.world.closing = false := rfl
  obtain ⟨hplayer, hagrees, _, hyields, _⟩ := rounds_play_as_steps hp hopen 9
  have hrests : (List.range 9).countP (fun i => restsNext (blinking.loop i (.start .first))) =
      4 := by decide +kernel
  have hlooped : (blinking.loop 9 (.start .first)).2.world.pacing.countP Mark.isYield = 2 := by
    decide +kernel
  refine ⟨hp, hopen, hplayer, ?_, hagrees.calls, ?_, hlooped, ?_⟩
  · decide +kernel
  · decide +kernel
  · exact hyields.trans (congrArg₂ (· + ·) hlooped hrests)

end Timetable

end LedSequencer
