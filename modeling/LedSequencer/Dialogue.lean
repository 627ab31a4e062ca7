/-! # Dialogues

  A dialogue asks questions one at a time and comes to an answer. What the
  sequencer does is written down as dialogues, so that one text serves three ends:
  it is run on a state (`run`), it is carried out by a program (`perform`), and it
  is taken apart question by question where several of them interleave.
-/

namespace LedSequencer

/-- Questions of type `Q`, where `R q` is the type of replies to `q`, and in the end an answer of
    type `α`. -/
inductive Dialogue (Q : Type) (R : Q → Type) (α : Type) where
  /-- The dialogue is over. -/
  | done (answer : α)
  /-- A question, and how the dialogue goes on with each reply. -/
  | ask (question : Q) (next : R question → Dialogue Q R α)

namespace Dialogue

variable {Q : Type} {R : Q → Type} {α β γ σ : Type}

/-- Goes on with a dialogue that depends on the answer of the first. -/
def bind : Dialogue Q R α → (α → Dialogue Q R β) → Dialogue Q R β
  | .done a, f => f a
  | .ask q next, f => .ask q fun r => (next r).bind f

instance : Monad (Dialogue Q R) where
  pure := .done
  bind := bind

/-- Asks one question and answers with the reply. -/
def question (q : Q) : Dialogue Q R (R q) := .ask q .done

/-- Runs a dialogue on a state that replies to each question and may change with it. -/
def run (reply : (q : Q) → σ → R q × σ) : Dialogue Q R α → σ → α × σ
  | .done a, s => (a, s)
  | .ask q next, s =>
    let replied := reply q s
    (next replied.1).run reply replied.2

/-- Carries a dialogue out in a monad that replies to each question. -/
def perform {m : Type → Type} [Monad m] (reply : (q : Q) → m (R q)) : Dialogue Q R α → m α
  | .done a => pure a
  | .ask q next => do
    let r ← reply q
    (next r).perform reply

/-! ### Laws -/

@[simp] theorem bind_done (a : α) (f : α → Dialogue Q R β) :
    (Dialogue.done a : Dialogue Q R α) >>= f = f a := rfl

@[simp] theorem bind_ask (q : Q) (next : R q → Dialogue Q R α) (f : α → Dialogue Q R β) :
    Dialogue.ask q next >>= f = .ask q fun r => next r >>= f := rfl

@[simp] theorem pure_eq_done (a : α) : (pure a : Dialogue Q R α) = .done a := rfl

@[simp] theorem bind_question (q : Q) (f : R q → Dialogue Q R β) :
    question q >>= f = .ask q f := rfl

theorem bind_pure (d : Dialogue Q R α) : (d >>= pure) = d := by
  induction d with
  | done a => rfl
  | ask q next ih =>
    rw [bind_ask]
    congr 1
    funext r
    exact ih r

theorem bind_assoc (d : Dialogue Q R α) (f : α → Dialogue Q R β) (g : β → Dialogue Q R γ) :
    (d >>= f) >>= g = d >>= fun a => f a >>= g := by
  induction d with
  | done a => rfl
  | ask q next ih =>
    simp only [bind_ask]
    congr 1
    funext r
    exact ih r

@[simp] theorem run_done (reply : (q : Q) → σ → R q × σ) (a : α) (s : σ) :
    (Dialogue.done a : Dialogue Q R α).run reply s = (a, s) := rfl

@[simp] theorem run_ask (reply : (q : Q) → σ → R q × σ) (q : Q) (next : R q → Dialogue Q R α)
    (s : σ) :
    (Dialogue.ask q next).run reply s = (next (reply q s).1).run reply (reply q s).2 := rfl

@[simp] theorem run_bind (reply : (q : Q) → σ → R q × σ) (d : Dialogue Q R α)
    (f : α → Dialogue Q R β) (s : σ) :
    (d >>= f).run reply s = (f (d.run reply s).1).run reply (d.run reply s).2 := by
  induction d generalizing s with
  | done a => rfl
  | ask q next ih =>
    simp only [bind_ask, run_ask]
    exact ih _ _

end Dialogue

end LedSequencer
