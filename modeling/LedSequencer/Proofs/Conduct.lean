import LedSequencer.Dialogue

/-! # Conduct of dialogues

  Where several dialogues interleave, nothing is known about what comes between two
  questions of one of them but that every party keeps to some conduct. A conduct says
  which questions may be asked and which replies can be counted on. `Dialogue.Follows`
  holds of a dialogue that asks nothing else as long as the replies are as they should
  be, and whose answer is then as promised. `Dialogue.ComesTo` holds of a dialogue that
  is certain to ask one question, and keeps to the conduct until then.

  Some dialogues do the same whatever is replied. `Dialogue.AmountsTo` lists what they
  ask, apart from questions that do not count.
-/

namespace LedSequencer

/-- What a dialogue may ask, and what it counts on. -/
structure Conduct (Q : Type) (R : Q → Type) where
  /-- The questions that may be asked. -/
  allows : Q → Prop
  /-- The replies that are counted on. -/
  expects : (q : Q) → R q → Prop

namespace Dialogue

variable {Q : Type} {R : Q → Type} {α β : Type} {c : Conduct Q R}

/-- A dialogue keeps to a conduct, and its answer keeps a promise. -/
def Follows (c : Conduct Q R) (promise : α → Prop) : Dialogue Q R α → Prop
  | .done a => promise a
  | .ask q next => c.allows q ∧ ∀ r, c.expects q r → (next r).Follows c promise

@[simp] theorem follows_done {promise : α → Prop} {a : α} :
    (Dialogue.done a : Dialogue Q R α).Follows c promise ↔ promise a := Iff.rfl

@[simp] theorem follows_ask {promise : α → Prop} {q : Q} {next : R q → Dialogue Q R α} :
    (Dialogue.ask q next).Follows c promise ↔
      c.allows q ∧ ∀ r, c.expects q r → (next r).Follows c promise := Iff.rfl

/-- A weaker promise is kept too. -/
theorem Follows.imp {promise promise' : α → Prop} {d : Dialogue Q R α}
    (h : d.Follows c promise) (himp : ∀ a, promise a → promise' a) : d.Follows c promise' := by
  induction d with
  | done a => exact himp a h
  | ask q next ih =>
    obtain ⟨hallows, hnext⟩ := h
    exact ⟨hallows, fun r hr => ih r (hnext r hr)⟩

/-- What goes on after a dialogue relies on its promise. -/
theorem Follows.bind {promise : α → Prop} {promise' : β → Prop} {d : Dialogue Q R α}
    {f : α → Dialogue Q R β} (h : d.Follows c promise)
    (hf : ∀ a, promise a → (f a).Follows c promise') : (d >>= f).Follows c promise' := by
  induction d with
  | done a => exact hf a h
  | ask q next ih =>
    obtain ⟨hallows, hnext⟩ := h
    exact ⟨hallows, fun r hr => ih r (hnext r hr)⟩

/-- A dialogue keeps to a conduct up to a question that it is certain to ask. What it goes on with
    depends on the reply to that question as described. -/
inductive ComesTo (c : Conduct Q R) (q : Q) (goesOn : R q → Dialogue Q R α → Prop) :
    Dialogue Q R α → Prop where
  | now (next : R q → Dialogue Q R α) (hnext : ∀ r, goesOn r (next r)) :
      ComesTo c q goesOn (.ask q next)
  | later (q' : Q) (next : R q' → Dialogue Q R α) (hallows : c.allows q')
      (hnext : ∀ r, c.expects q' r → ComesTo c q goesOn (next r)) :
      ComesTo c q goesOn (.ask q' next)

/-- The question can come after a dialogue that keeps to the conduct. -/
theorem Follows.comesTo {promise : α → Prop} {q : Q} {goesOn : R q → Dialogue Q R β → Prop}
    {d : Dialogue Q R α} {f : α → Dialogue Q R β} (h : d.Follows c promise)
    (hf : ∀ a, promise a → (f a).ComesTo c q goesOn) : (d >>= f).ComesTo c q goesOn := by
  induction d with
  | done a => exact hf a h
  | ask q' next ih =>
    obtain ⟨hallows, hnext⟩ := h
    exact .later q' _ hallows fun r hr => ih r (hnext r hr)

/-- Whatever the replies are, a dialogue asks these questions in order, among others that do not
    count, and comes to this answer. -/
inductive AmountsTo (counts : Q → Bool) (answer : α) : List Q → Dialogue Q R α → Prop where
  | done : AmountsTo counts answer [] (.done answer)
  | aside {q : Q} {next : R q → Dialogue Q R α} {qs : List Q} (hq : counts q = false)
      (hnext : ∀ r, AmountsTo counts answer qs (next r)) : AmountsTo counts answer qs (.ask q next)
  | asks {q : Q} {next : R q → Dialogue Q R α} {qs : List Q} (hq : counts q = true)
      (hnext : ∀ r, AmountsTo counts answer qs (next r)) :
      AmountsTo counts answer (q :: qs) (.ask q next)

/-- What comes after such a dialogue is asked after it. -/
theorem AmountsTo.bind {counts : Q → Bool} {a : α} {b : β} {qs qs' : List Q}
    {d : Dialogue Q R α} {f : α → Dialogue Q R β} (h : d.AmountsTo counts a qs)
    (hf : (f a).AmountsTo counts b qs') : (d >>= f).AmountsTo counts b (qs ++ qs') := by
  induction h with
  | done => exact hf
  | aside hq _ ih => exact .aside hq ih
  | asks hq _ ih => exact .asks hq ih

/-- What a run of such a dialogue does to a state is made up of what its questions do. -/
theorem AmountsTo.run {σ : Type} {reply : (q : Q) → σ → R q × σ} {P : List Q → σ → σ → Prop}
    {counts : Q → Bool} {answer : α} {qs : List Q} {d : Dialogue Q R α}
    (h : d.AmountsTo counts answer qs) (hrefl : ∀ s, P [] s s)
    (htrans : ∀ qs qs' s s' s'', P qs s s' → P qs' s' s'' → P (qs ++ qs') s s'')
    (haside : ∀ q s, counts q = false → P [] s (reply q s).2)
    (hasks : ∀ q s, q ∈ qs → P [q] s (reply q s).2) (s : σ) :
    (d.run reply s).1 = answer ∧ P qs s (d.run reply s).2 := by
  induction h generalizing s with
  | done => exact ⟨rfl, hrefl s⟩
  | @aside q next qs hq _ ih =>
    obtain ⟨hanswer, hrest⟩ := ih (reply q s).1 hasks (reply q s).2
    exact ⟨hanswer, htrans [] qs _ _ _ (haside q s hq) hrest⟩
  | @asks q next qs _ _ ih =>
    have hlater : ∀ q' s, q' ∈ qs → P [q'] s (reply q' s).2 := by
      intro q' s hq'
      exact hasks q' s (List.mem_cons_of_mem q hq')
    obtain ⟨hanswer, hrest⟩ := ih (reply q s).1 hlater (reply q s).2
    exact ⟨hanswer, htrans [q] qs _ _ _ (hasks q s List.mem_cons_self) hrest⟩

end Dialogue

end LedSequencer
