import LedSequencer.Proofs.Activities
import LedSequencer.Proofs.Outputs

/-! # Deeds

  Reports change nothing in the shared state, and whether the sequencer closes is known
  to whoever is alone with it. An activity without its reports and without that question
  has the same effects, and is easier to compare with another one.

  * **Deeds**: what is left of an activity, as long as nobody else closes.
  * **Effects**: an activity and its deeds come to the same (`Agrees.run_deeds`).
-/

namespace LedSequencer

/-! ### Deeds -/

/-- The reply to an action that is known beforehand, if it is known whether the sequencer closes. -/
def Action.foreseen? (isClosing : Bool) : (a : Action) → Option a.Reply
  | .isClosing => some isClosing
  | .report _ => some ()
  | _ => none

/-- Whether an action lets the sequencer close. -/
def Action.isClose : Action → Bool
  | .close => true
  | _ => false

theorem Action.isClose_of_isPassing {a : Action} (ha : a.isPassing = true) :
    a.isClose = false := by
  cases a with
  | wake | sleep | yield | report => rfl
  | load | publish | await | isClosing | close | bank => cases ha

namespace Activity

variable {α β : Type}

/-- What an activity does while nobody else lets the sequencer close: its reports are left out, and
    it knows by itself whether the sequencer closes. -/
def deeds : Bool → Activity α → Activity α
  | _, .done a => .done a
  | isClosing, .ask a next =>
    match a.foreseen? isClosing with
    | some reply => deeds isClosing (next reply)
    | none => .ask a fun reply => deeds (isClosing || a.isClose) (next reply)

/-- What comes after an activity that closes nothing is still done under the same conditions. -/
theorem deeds_bind {promise : α → Prop} {d : Activity α}
    (hd : d.Follows (.avoiding Action.isClose) promise) (isClosing : Bool) (f : α → Activity β) :
    deeds isClosing (d >>= f) = deeds isClosing d >>= fun a => deeds isClosing (f a) := by
  induction d with
  | done a => rfl
  | ask a next ih =>
    obtain ⟨hopen, hnext⟩ := hd
    have hopen : a.isClose = false := hopen
    rw [Dialogue.bind_ask, deeds, deeds]
    cases a.foreseen? isClosing with
    | some reply => exact ih reply (hnext reply trivial)
    | none =>
      simp only [hopen, Bool.or_false, Dialogue.bind_ask]
      congr 1
      funext reply
      exact ih reply (hnext reply trivial)

/-- What is made of an answer in the end is no deed. -/
theorem deeds_bind_pure (isClosing : Bool) (d : Activity α) (f : α → β) :
    deeds isClosing (d >>= fun a => pure (f a)) = deeds isClosing d >>= fun a => pure (f a) := by
  induction d generalizing isClosing with
  | done a => rfl
  | ask a next ih =>
    rw [Dialogue.bind_ask, deeds, deeds]
    cases a.foreseen? isClosing with
    | some reply => exact ih reply isClosing
    | none =>
      simp only [Dialogue.bind_ask]
      congr 1
      funext reply
      exact ih reply _

end Activity

/-! ### Effects -/

namespace World

variable {σ α : Type}

/-- Two states agree in everything but what was reported, slept and yielded. -/
structure Agrees (w w' : World σ) : Prop where
  /-- The drivers are in the same state. -/
  driver : w.driver = w'.driver
  /-- Both outputs are sealed, or neither is. -/
  isSealed : w.isSealed = w'.isSealed
  /-- The same sequence is active, under the same identity. -/
  active : w.active = w'.active
  /-- Both close, or neither does. -/
  closing : w.closing = w'.closing
  /-- The drivers were given the same calls and answered them alike. -/
  calls : w.calls = w'.calls

theorem Agrees.refl (w : World σ) : Agrees w w := ⟨rfl, rfl, rfl, rfl, rfl⟩

theorem Agrees.symm {w w' : World σ} (h : Agrees w w') : Agrees w' w :=
  ⟨h.driver.symm, h.isSealed.symm, h.active.symm, h.closing.symm, h.calls.symm⟩

theorem Agrees.trans {w w' w'' : World σ} (h : Agrees w w') (h' : Agrees w' w'') : Agrees w w'' :=
  ⟨h.driver.trans h'.driver, h.isSealed.trans h'.isSealed, h.active.trans h'.active,
    h.closing.trans h'.closing, h.calls.trans h'.calls⟩

/-- A mark that is no call keeps two states in agreement. -/
theorem Agrees.mark {w w' : World σ} (h : Agrees w w') {m : Mark} (hm : m.call? = none) :
    Agrees (w.mark m) w' :=
  ⟨h.driver, h.isSealed, h.active, h.closing, (calls_mark hm w).trans h.calls⟩

theorem Agrees.mark_right {w w' : World σ} (h : Agrees w w') {m : Mark} (hm : m.call? = none) :
    Agrees w (w'.mark m) := (h.symm.mark hm).symm

variable [PinDriver σ]

theorem run_ask (a : Action) (next : a.Reply → Activity α) (w : World σ) :
    w.run (.ask a next) = (w.act a).2.run (next (w.act a).1) := rfl

theorem run_done (a : α) (w : World σ) : w.run (.done a : Activity α) = (a, w) := rfl

theorem Agrees.request {w w' : World σ} (h : Agrees w w') (r : Request) :
    (World.request r w).1 = (World.request r w').1 ∧
      Agrees (World.request r w).2 (World.request r w').2 := by
  cases r with
  | report event => exact ⟨rfl, (h.mark rfl).mark_right rfl⟩
  | call c =>
    have hreply : (World.request (.call c) w).1 = (World.request (.call c) w').1 := by
      simp only [World.request, h.driver]
    refine ⟨hreply, ?_, h.isSealed, h.active, h.closing, ?_⟩
    · simp only [World.request, h.driver]
    · rw [calls_request_call, calls_request_call, h.calls, hreply]

theorem Agrees.run_request {w w' : World σ} (h : Agrees w w') (d : Wiring α) :
    (d.run World.request w).1 = (d.run World.request w').1 ∧
      Agrees (d.run World.request w).2 (d.run World.request w').2 := by
  induction d generalizing w w' with
  | done a => exact ⟨rfl, h⟩
  | ask r next ih =>
    obtain ⟨hreply, hagrees⟩ := h.request r
    rw [Dialogue.run_ask, Dialogue.run_ask, hreply]
    exact ih _ hagrees

/-- States that agree give the same reply to an action and agree after it. -/
theorem Agrees.act {w w' : World σ} (h : Agrees w w') (a : Action) :
    (w.act a).1 = (w'.act a).1 ∧ Agrees (w.act a).2 (w'.act a).2 := by
  cases a with
  | load => exact ⟨h.active, h⟩
  | publish s =>
    refine ⟨rfl, h.driver, h.isSealed, ?_, h.closing, h.calls⟩
    show w.active.next s = w'.active.next s
    rw [h.active]
  | wake => exact ⟨rfl, h⟩
  | await id =>
    refine ⟨?_, h⟩
    show (w.active.id != id) = (w'.active.id != id)
    rw [h.active]
  | isClosing => exact ⟨h.closing, h⟩
  | close => exact ⟨rfl, h.driver, h.isSealed, h.active, rfl, h.calls⟩
  | bank op =>
    obtain ⟨hresult, hagrees⟩ := h.run_request (op.wiring w.isSealed)
    simp only [World.act, World.bank, ← h.isSealed, hresult]
    exact ⟨trivial, hagrees.driver, rfl, hagrees.active, hagrees.closing, hagrees.calls⟩
  | sleep length => exact ⟨rfl, (h.mark rfl).mark_right rfl⟩
  | yield => exact ⟨rfl, (h.mark rfl).mark_right rfl⟩
  | report event => exact ⟨rfl, (h.mark rfl).mark_right rfl⟩

/-- Only letting the sequencer close changes whether it does. -/
theorem closing_act (a : Action) (w : World σ) :
    (w.act a).2.closing = (w.closing || a.isClose) := by
  cases a with
  | bank op => exact (run_request_frame _ w).2.trans (Bool.or_false _).symm
  | close => exact (Bool.or_true _).symm
  | load | publish | wake | await | isClosing | sleep | yield | report =>
    exact (Bool.or_false _).symm

/-- An activity and its deeds come to the same. -/
theorem Agrees.run_deeds {w w' : World σ} (h : Agrees w w') (d : Activity α) :
    (w.run d).1 = (w'.run (Activity.deeds w.closing d)).1 ∧
      Agrees (w.run d).2 (w'.run (Activity.deeds w.closing d)).2 := by
  -- only the activity itself can close, so both sides know the flag after each action
  induction d generalizing w w' with
  | done a => exact ⟨rfl, h⟩
  | ask a next ih =>
    rw [Activity.deeds]
    cases hforeseen : a.foreseen? w.closing with
    | some reply =>
      -- the action shows at most in the reports
      have hknown : (w.act a).1 = reply ∧ Agrees (w.act a).2 w' ∧
          (w.act a).2.closing = w.closing := by
        cases a with
        | isClosing => exact ⟨Option.some.inj hforeseen, h, rfl⟩
        | report event => exact ⟨rfl, h.mark rfl, rfl⟩
        | load | publish | wake | await | close | bank | sleep | yield => cases hforeseen
      obtain ⟨hreply, hagrees, hclosing⟩ := hknown
      have hnext := ih (w.act a).1 hagrees
      rw [hclosing, hreply] at hnext
      rw [run_ask, hreply]
      exact hnext
    | none =>
      obtain ⟨hreply, hagrees⟩ := h.act a
      have hnext := ih (w.act a).1 hagrees
      rw [closing_act] at hnext
      simp only [run_ask, ← hreply]
      exact hnext

/-- Activities with the same deeds come to the same. -/
theorem agrees_of_deeds {d d' : Activity α} {w : World σ}
    (h : Activity.deeds w.closing d = Activity.deeds w.closing d') :
    (w.run d).1 = (w.run d').1 ∧ Agrees (w.run d).2 (w.run d').2 := by
  obtain ⟨hanswer, hafter⟩ := (Agrees.refl w).run_deeds d
  obtain ⟨hanswer', hafter'⟩ := (Agrees.refl w).run_deeds d'
  rw [h] at hanswer hafter
  exact ⟨hanswer.trans hanswer'.symm, hafter.trans hafter'.symm⟩

end World

end LedSequencer
