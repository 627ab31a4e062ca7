import LedSequencer.Proofs.Ensemble

/-! # Accounts of players

  An `Account` is what a log tells of one player, one entry after another: which
  sequences the player has taken up, what it has played of each, and whether another
  sequence has become active that it has not seen. It is made from the log alone and
  knows nothing of the player's state.

  * **What a log tells**: accounts, and all that a player has returned.
  * **News**: what the account says after a publication.
-/

namespace LedSequencer

/-! ### What a log tells -/

/-- What a log tells of one player. -/
structure Account where
  /-- The sequences that the player has left behind, each with what it has played of it. -/
  past : List (Sequence × List Operation)
  /-- The sequence that the player has taken up last. -/
  sequence : Sequence
  /-- What it has played of that sequence. -/
  played : List Operation
  /-- The sequence that was made active last, when one was since the player last looked. -/
  news : Option Sequence

namespace Account

/-- An account of a player that has played nothing yet. -/
def start (s : Sequence) : Account := { past := [], sequence := s, played := [], news := none }

/-- The player looks: when there is news, it takes the latest sequence up. -/
def look (a : Account) : Account :=
  match a.news with
  | none => a
  | some s =>
    { past := a.past ++ [(a.sequence, a.played)], sequence := s, played := [], news := none }

/-- One more entry of the log. -/
def add {ι : Type} [DecidableEq ι] (i : ι) (a : Account) : Entry ι → Account
  | .did who .load _ => if who = i then a.look else a
  | .did _ (.publish s) _ => { a with news := some s }
  | .ended who (.stepped op _) => if who = i then { a with played := a.played ++ [op] } else a
  | _ => a

/-- What a log tells of a player that held a sequence at its start. -/
def ofLog {ι : Type} [DecidableEq ι] (i : ι) (s : Sequence) (log : List (Entry ι)) : Account :=
  log.foldl (add i) (start s)

/-- All stretches of play, the present one last. -/
def stretches (a : Account) : List (Sequence × List Operation) :=
  a.past ++ [(a.sequence, a.played)]

/-- Looking may begin a stretch, and plays nothing. -/
theorem flatMap_stretches_look (a : Account) :
    a.look.stretches.flatMap Prod.snd = a.stretches.flatMap Prod.snd := by
  unfold look
  split <;> simp [stretches]

end Account

/-- The operation that a step of a party has returned. -/
def Entry.returned? {ι : Type} [DecidableEq ι] (i : ι) : Entry ι → Option Operation
  | .ended who (.stepped op _) => if who = i then some op else none
  | _ => none

namespace Account

variable {ι : Type} [DecidableEq ι] {i : ι} {s : Sequence} {log : List (Entry ι)}

theorem ofLog_append_singleton (log : List (Entry ι)) (entry : Entry ι) :
    ofLog i s (log ++ [entry]) = (ofLog i s log).add i entry := by
  simp [ofLog]

theorem flatMap_stretches_add (a : Account) (entry : Entry ι) :
    (a.add i entry).stretches.flatMap Prod.snd =
      a.stretches.flatMap Prod.snd ++ (entry.returned? i).toList := by
  cases entry with
  | began who order => simp [add, Entry.returned?]
  | did who action reply =>
    cases action with
    | load =>
      by_cases hwho : who = i
      · simp [add, Entry.returned?, hwho, flatMap_stretches_look]
      · simp [add, Entry.returned?, hwho]
    | publish s => simp [add, Entry.returned?, stretches]
    | wake | await | isClosing | close | bank | sleep | yield | report =>
      simp [add, Entry.returned?]
  | ended who outcome =>
    cases outcome with
    | stepped op p =>
      by_cases hwho : who = i
      · simp [add, Entry.returned?, hwho, stretches]
      · simp [add, Entry.returned?, hwho]
    | handled | installed | closed | entered => simp [add, Entry.returned?]

/-- The stretches of play are all that the player has returned, split up. -/
theorem flatMap_stretches_ofLog (i : ι) (s : Sequence) (log : List (Entry ι)) :
    (ofLog i s log).stretches.flatMap Prod.snd = log.filterMap (Entry.returned? i) := by
  induction log using List.reverseRecOn with
  | nil => rfl
  | append_singleton log entry ih =>
    rw [ofLog_append_singleton, flatMap_stretches_add, ih, List.filterMap_append]
    cases hentry : entry.returned? i <;> simp [hentry]

end Account

/-! ### News -/

namespace Account

variable {ι : Type} [DecidableEq ι] {i : ι} {a : Account} {s : Sequence}

/-- The player plays a sequence, or will once it looks. -/
def IsBound (a : Account) (s : Sequence) : Prop :=
  a.news = some s ∨ a.news = none ∧ a.sequence = s

/-- The player plays a sequence, and no other one is news. -/
def IsAt (a : Account) (s : Sequence) : Prop := a.sequence = s ∧ ∀ t ∈ a.news, t = s

/-- An entry that publishes nothing else changes an account in one of three ways. -/
theorem add_cases {entry : Entry ι} (hentry : ∀ who t reply,
    entry = .did who (.publish t) reply → t = s) :
    a.add i entry = { a with news := some s } ∨ a.add i entry = a.look ∨
      ∃ played, a.add i entry = { a with played := played } := by
  cases entry with
  | began who order => exact .inr (.inr ⟨a.played, rfl⟩)
  | did who action reply =>
    cases action with
    | load =>
      by_cases hwho : who = i
      · exact .inr (.inl (if_pos hwho))
      · exact .inr (.inr ⟨a.played, if_neg hwho⟩)
    | publish t =>
      rw [← hentry who t reply rfl]
      exact .inl rfl
    | wake | await | isClosing | close | bank | sleep | yield | report =>
      exact .inr (.inr ⟨a.played, rfl⟩)
  | ended who outcome =>
    cases outcome with
    | stepped op p =>
      by_cases hwho : who = i
      · exact .inr (.inr ⟨a.played ++ [op], if_pos hwho⟩)
      · exact .inr (.inr ⟨a.played, if_neg hwho⟩)
    | handled | installed | closed | entered => exact .inr (.inr ⟨a.played, rfl⟩)

theorem IsBound.look (h : a.IsBound s) : a.look.IsAt s := by
  unfold Account.look
  rcases h with hnews | ⟨hnews, hsequence⟩
  · rw [hnews]
    exact ⟨rfl, fun t ht => by cases ht⟩
  · rw [hnews]
    exact ⟨hsequence, fun t ht => by rw [hnews] at ht; cases ht⟩

theorem IsAt.isBound (h : a.IsAt s) : a.IsBound s := by
  obtain ⟨hsequence, hnews⟩ := h
  cases ht : a.news with
  | none => exact .inr ⟨ht, hsequence⟩
  | some t => exact .inl (by rw [ht, hnews t ht])

theorem IsBound.add (h : a.IsBound s) {entry : Entry ι} (hentry : ∀ who t reply,
    entry = .did who (.publish t) reply → t = s) : (a.add i entry).IsBound s := by
  rcases add_cases (a := a) (i := i) hentry with heq | heq | ⟨played, heq⟩
  · rw [heq]
    exact .inl rfl
  · rw [heq]
    exact h.look.isBound
  · rw [heq]
    exact h

theorem IsAt.add (h : a.IsAt s) {entry : Entry ι} (hentry : ∀ who t reply,
    entry = .did who (.publish t) reply → t = s) : (a.add i entry).IsAt s := by
  rcases add_cases (a := a) (i := i) hentry with heq | heq | ⟨played, heq⟩
  · rw [heq]
    exact ⟨h.1, fun t ht => (Option.some.inj ht).symm⟩
  · rw [heq]
    exact h.isBound.look
  · rw [heq]
    exact h

/-- Once a sequence has been published and the player has looked, that sequence is played until
    another one is published. -/
theorem isAt_ofLog {log u v : List (Entry ι)} {start : Sequence} {who : ι} {active : Published}
    (hlog : log = u ++ .did who (.publish s) () :: v) (hlook : .did i .load active ∈ v)
    (hv : ∀ who t reply, .did who (.publish t) reply ∈ v → t = s) :
    (ofLog i start log).IsAt s := by
  have hadd : ∀ entry ∈ v, ∀ who t reply, entry = .did who (.publish t) reply → t = s := by
    rintro entry hentry who t reply rfl
    exact hv who t reply hentry
  obtain ⟨v₁, v₂, rfl⟩ := List.append_of_mem hlook
  -- until the player looks, the sequence is news or is played already
  have hbound : (ofLog i start (u ++ .did who (.publish s) () :: v₁)).IsBound s := by
    rw [ofLog, List.foldl_append, List.foldl_cons]
    refine List.foldlRecOn (motive := fun a => IsBound a s) v₁ (add i) (.inl rfl) ?_
    intro a ha entry hentry
    exact ha.add (hadd entry (List.mem_append_left _ hentry))
  have hsplit : log = (u ++ .did who (.publish s) () :: v₁) ++ .did i .load active :: v₂ := by
    rw [hlog, List.append_assoc]
    rfl
  -- from then on it is played
  have hlooked : ((ofLog i start (u ++ .did who (.publish s) () :: v₁)).add i
      (.did i .load active)).IsAt s := by
    have hload : ∀ a : Account, a.add i (.did i .load active) = a.look := fun a => if_pos rfl
    rw [hload]
    exact hbound.look
  rw [hsplit, ofLog, List.foldl_append, List.foldl_cons]
  refine List.foldlRecOn (motive := fun a => IsAt a s) v₂ (add i) hlooked ?_
  intro a ha entry hentry
  exact ha.add (hadd entry (List.mem_append_right _ (List.mem_cons_of_mem _ hentry)))

end Account

end LedSequencer
