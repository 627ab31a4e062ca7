import LedSequencer.Playback.Watch
import LedSequencer.Proofs.Activities
import Mathlib.Logic.Function.Basic

/-! # Lobbies

  Any number of parties share one `World`, and each is on a thread of its own. Unlike in
  an `Ensemble`, waiting and waking are taken apart into signals: between two signals of
  one party the others may come, take the lock, and make sequences active without it.
  Identities are not counted here. Whoever makes a sequence active may give it any
  identity that nobody has in hand.

  * **Promptness**: what is asked of the activities of a party.
  * **Parties**: where they stand, and what happens.
  * **Views of a log**: what a party has in hand, owes and has found.
  * **Steps**: what a party does in its turn, and what is reachable.
-/

namespace LedSequencer

/-! ### Promptness -/

/-- Whether an action makes a sequence active. -/
def Action.isPublish : Action → Bool
  | .publish _ => true
  | _ => false

theorem Action.isPublish_of_isPassing {a : Action} (ha : a.isPassing = true) :
    a.isPublish = false := by
  cases a with
  | wake | sleep | yield | report => rfl
  | load | publish | await | isClosing | close | bank => cases ha

namespace Activity

variable {α β : Type}

/-- Whoever makes a sequence active wakes those who wait, before anything else. -/
inductive IsPrompt : Activity α → Prop where
  | done (a : α) : IsPrompt (.done a)
  | publish {s : Sequence} {next : Unit → Activity α} (hnext : IsPrompt (next ())) :
      IsPrompt (.ask (.publish s) fun _ => .ask .wake next)
  | other {a : Action} {next : a.Reply → Activity α} (ha : a.isPublish = false)
      (hnext : ∀ reply, IsPrompt (next reply)) : IsPrompt (.ask a next)

theorem IsPrompt.bind {d : Activity α} {f : α → Activity β} (hd : d.IsPrompt)
    (hf : ∀ a, (f a).IsPrompt) : (d >>= f).IsPrompt := by
  induction hd with
  | done a => exact hf a
  | publish _ ih => exact .publish ih
  | other ha _ ih => exact .other ha ih

/-- Whoever makes nothing active is prompt. -/
theorem isPrompt_of_follows {promise : α → Prop} {d : Activity α}
    (hd : d.Follows (.avoiding Action.isPublish) promise) : d.IsPrompt := by
  induction d with
  | done a => exact .done a
  | ask a next ih => exact .other hd.1 fun reply => ih reply (hd.2 reply trivial)

/-- An installation wakes at once. -/
theorem isPrompt_install (s : Sequence) : (install s).IsPrompt :=
  .other rfl fun _ => .publish (.done ())

theorem isPrompt_shutDown (pins : List Pin) : (shutDown pins).IsPrompt :=
  isPrompt_of_follows (follows_shutDown
    (Conduct.lenient_avoiding fun _ => Action.isPublish_of_isPassing) rfl rfl)

end Activity

namespace Player

/-- The loop of a player makes nothing active. -/
theorem isPrompt_rounds (k : Nat) (p : Player) : (rounds k p).IsPrompt := by
  have hlenient : (Conduct.avoiding Action.isPublish).Lenient :=
    Conduct.lenient_avoiding fun _ => Action.isPublish_of_isPassing
  have hround : ∀ p : Player, p.round.IsPrompt := by
    intro p
    refine .other rfl fun closing => ?_
    cases closing with
    | true => exact .done none
    | false => exact Activity.isPrompt_of_follows (follows_playOn hlenient rfl rfl fun _ _ => rfl)
  induction k generalizing p with
  | zero => exact .done p
  | succ k ih =>
    apply (hround p).bind
    intro played
    cases played with
    | none => exact .other rfl fun _ => .done p
    | some p => exact ih p

end Player

/-- A line makes a sequence active at its end only, when it is accepted. -/
theorem Session.isPrompt_handleLine (s : Session) (line : String) :
    (s.handleLine line).IsPrompt := by
  have hlenient : (Conduct.avoiding Action.isPublish).Lenient :=
    Conduct.lenient_avoiding fun _ => Action.isPublish_of_isPassing
  refine .other rfl fun _ => ?_
  apply (Activity.isPrompt_of_follows (Activity.follows_reportAll hlenient _)).bind
  intro _
  split
  · exact .done _
  · exact (Activity.isPrompt_install _).bind fun _ => .done _

/-! ### Parties -/

/-- Where a party stands. -/
inductive Stance where
  /-- Between two actions of an activity. With nothing left to do the party is free. -/
  | busy (rest : Activity Unit)
  /-- Between two signals of an action. -/
  | amid (a : Action) (rest : Watch a.Reply) (next : a.Reply → Activity Unit)
  /-- Parked, and not stirred. -/
  | parked (a : Action) (rest : Watch a.Reply) (next : a.Reply → Activity Unit)
  /-- Stirred, or out of time, and without the lock yet. -/
  | stirred (a : Action) (rest : Watch a.Reply) (next : a.Reply → Activity Unit)

namespace Stance

/-- Everyone is stirred: who is parked is so no more. -/
def stir : Stance → Stance
  | .parked a rest next => .stirred a rest next
  | s => s

/-- Whether a party has the lock: it has taken it and not given it back. -/
def isInside : Stance → Bool
  | .amid _ (.ask .lock _) _ => false
  | .amid _ (.ask _ _) _ => true
  | _ => false

/-- Whether a party is about to wake: it is before the signal that stirs everyone, at most a lock
    away. -/
def isToNotify : Stance → Bool
  | .busy (.ask .wake _) => true
  | .amid .wake (.ask .lock _) _ => true
  | .amid .wake (.ask .notifyAll _) _ => true
  | _ => false

end Stance

/-- What can happen in a lobby. -/
inductive Occurrence (ι : Type) where
  /-- A party carries out an action in one step. -/
  | did (who : ι) (a : Action) (reply : a.Reply)
  /-- A party lets go of what it has looked at. -/
  | dropped (who : ι)
  /-- A party makes a sequence active. -/
  | stored (who : ι) (made : Published)
  /-- A party begins an action that takes several signals. -/
  | began (who : ι) (a : Action)
  /-- A party that waits for something else than one identity finds another, or the same. -/
  | compared (who : ι) (id found : Nat)
  /-- A party stirs everyone. -/
  | notified (who : ι)
  /-- A party parks. -/
  | parked (who : ι)
  /-- A party comes to the end of an action that took several signals. -/
  | ended (who : ι) (a : Action) (reply : a.Reply)

namespace Occurrence

variable {ι : Type} [DecidableEq ι]

/-- Whose doing it is. -/
def who : Occurrence ι → ι
  | .did who _ _ | .dropped who | .stored who _ | .began who _ | .compared who _ _ => who
  | .notified who | .parked who | .ended who _ _ => who

/-- What the party has in hand from now on: the identity of what it looks at, or nothing. -/
def hand? (i : ι) : Occurrence ι → Option (Option Nat)
  | .did who .load found => if who = i then some (some found.id) else none
  | .dropped who => if who = i then some none else none
  | _ => none

/-- What becomes of the identity in the hands of a party: it is replaced as the active one, or else
    taken up. -/
def outdates? (i : ι) : Occurrence ι → Option Bool
  | .stored _ _ => some true
  | .did who .load _ => if who = i then some false else none
  | _ => none

/-- Whether a party owes a notice, if this has to do with it: it owes one since it stored, until it
    stirs everyone. -/
def owes? (i : ι) : Occurrence ι → Option Bool
  | .stored who _ => if who = i then some true else none
  | .notified who => if who = i then some false else none
  | _ => none

/-- Whether the party goes from one action to another, into an action or out of it. -/
def isTurning (i : ι) : Occurrence ι → Bool
  | .did who _ _ | .dropped who | .stored who _ | .began who _ | .ended who _ _ => who = i
  | .compared _ _ _ | .notified _ | .parked _ => false

/-- The sequence that was made active. -/
def stored? : Occurrence ι → Option Published
  | .stored _ made => some made
  | _ => none

/-- What the party compared: the identity that it was not to find, and the one that it found. -/
def compared? (i : ι) : Occurrence ι → Option (Nat × Nat)
  | .compared who id found => if who = i then some (id, found) else none
  | _ => none

end Occurrence

/-! ### Views of a log -/

section

variable {ι : Type} [DecidableEq ι]

/-- The identity that a party has in hand: the one of the sequence that it looked at last, unless it
    has let go of it. -/
def inHand? (i : ι) (log : List (Occurrence ι)) : Option Nat := (log.findSome? (·.hand? i)).join

/-- A party has an identity in hand, and since it took it another sequence has been made active. -/
def IsOutdated (i : ι) (id : Nat) (log : List (Occurrence ι)) : Prop :=
  inHand? i log = some id ∧ log.findSome? (·.outdates? i) = some true

/-- A party has made a sequence active, and has not stirred anyone since. -/
def OwesNotice (i : ι) (log : List (Occurrence ι)) : Prop :=
  log.findSome? (·.owes? i) = some true

/-- The sequence that was made active last. -/
def lastStored? (log : List (Occurrence ι)) : Option Published := log.findSome? (·.stored?)

/-- The last comparison of a party. -/
def lastCompared? (i : ι) (log : List (Occurrence ι)) : Option (Nat × Nat) :=
  log.findSome? (·.compared? i)

end

/-- Parties over a shared state, with a lock for waiting and waking. -/
structure Lobby (ι σ : Type) where
  /-- The shared state. -/
  world : World σ
  /-- Who has the lock. -/
  owner : Option ι
  /-- Where each party stands. -/
  stances : ι → Stance
  /-- What has happened, latest first. -/
  log : List (Occurrence ι)

namespace Lobby

variable {ι σ : Type}

/-- A lobby in which everyone is free. -/
def start (world : World σ) : Lobby ι σ where
  world
  owner := none
  stances _ := .busy (.done ())
  log := []

/-- Stirs everyone who is parked. -/
def stir (l : Lobby ι σ) : Lobby ι σ := { l with stances := fun i => (l.stances i).stir }

variable [DecidableEq ι]

/-- Nobody can confuse the identity with another one: it is not active, and nobody has it in
    hand. -/
def IsFresh (l : Lobby ι σ) (id : Nat) : Prop :=
  id ≠ l.world.active.id ∧ ∀ i, inHand? i l.log ≠ some id

/-- Changes where a party stands. -/
def move (l : Lobby ι σ) (i : ι) (s : Stance) : Lobby ι σ :=
  { l with stances := Function.update l.stances i s }

section

variable {l : Lobby ι σ} {i j : ι}

@[simp] theorem stances_move_self (s : Stance) : (l.move i s).stances i = s :=
  Function.update_self ..

theorem stances_move_of_ne (hj : j ≠ i) (s : Stance) : (l.move i s).stances j = l.stances j :=
  Function.update_of_ne hj ..

end

/-! ### Steps -/

variable [PinDriver σ]

/-- What a party does in its turn. -/
inductive Step (l : Lobby ι σ) (i : ι) : Lobby ι σ → Prop where
  /-- A free party begins a prompt activity. -/
  | begins {d : Activity Unit} (hi : l.stances i = .busy (.done ())) (hd : d.IsPrompt) :
      Step l i (l.move i (.busy d))
  /-- An action in one step. -/
  | acts {a : Action} {next : a.Reply → Activity Unit} (hi : l.stances i = .busy (.ask a next))
      (ha : a.watch? = none) (hpublish : a.isPublish = false) :
      Step l i { l.move i (.busy (next (l.world.act a).1)) with
        world := (l.world.act a).2
        log := .did i a (l.world.act a).1 :: l.log }
  /-- Between two actions a party can let go of what it has in hand. -/
  | drops {rest : Activity Unit} (hi : l.stances i = .busy rest) :
      Step l i { l with log := .dropped i :: l.log }
  /-- A sequence becomes the active one, under a fresh identity. The lock has no part in it. -/
  | stores {s : Sequence} {next : Unit → Activity Unit} {id : Nat}
      (hi : l.stances i = .busy (.ask (.publish s) next)) (hid : l.IsFresh id) :
      Step l i { l.move i (.busy (next ())) with
        world := { l.world with active := { id, sequence := s } }
        log := .stored i { id, sequence := s } :: l.log }
  /-- An action that takes several signals begins. -/
  | enters {a : Action} {next : a.Reply → Activity Unit} {d : Watch a.Reply}
      (hi : l.stances i = .busy (.ask a next)) (ha : a.watch? = some d) :
      Step l i { l.move i (.amid a d next) with log := .began i a :: l.log }
  /-- The lock is taken when nobody has it. -/
  | locks {a : Action} {rest : Unit → Watch a.Reply} {next : a.Reply → Activity Unit}
      (hi : l.stances i = .amid a (.ask .lock rest) next) (hfree : l.owner = none) :
      Step l i { l.move i (.amid a (rest ()) next) with owner := some i }
  /-- The lock is given back. -/
  | unlocks {a : Action} {rest : Unit → Watch a.Reply} {next : a.Reply → Activity Unit}
      (hi : l.stances i = .amid a (.ask .unlock rest) next) :
      Step l i { l.move i (.amid a (rest ()) next) with owner := none }
  /-- The active identity is compared. -/
  | compares {a : Action} {id : Nat} {rest : Bool → Watch a.Reply} {next : a.Reply → Activity Unit}
      (hi : l.stances i = .amid a (.ask (.differs id) rest) next) :
      Step l i { l.move i (.amid a (rest (l.world.active.id != id)) next) with
        log := .compared i id l.world.active.id :: l.log }
  /-- Everyone who is parked is stirred. -/
  | notifies {a : Action} {rest : Unit → Watch a.Reply} {next : a.Reply → Activity Unit}
      (hi : l.stances i = .amid a (.ask .notifyAll rest) next) :
      Step l i { l.stir.move i (.amid a (rest ()) next) with log := .notified i :: l.log }
  /-- The lock is given back and the party parks, in one step. -/
  | parks {a : Action} {rest : Unit → Watch a.Reply} {next : a.Reply → Activity Unit}
      (hi : l.stances i = .amid a (.ask .park rest) next) :
      Step l i { l.move i (.parked a (rest ()) next) with
        owner := none
        log := .parked i :: l.log }
  /-- The time of a parked party is up. -/
  | expires {a : Action} {rest : Watch a.Reply} {next : a.Reply → Activity Unit}
      (hi : l.stances i = .parked a rest next) : Step l i (l.move i (.stirred a rest next))
  /-- A stirred party takes the lock again when nobody has it, and goes on. -/
  | relocks {a : Action} {rest : Watch a.Reply} {next : a.Reply → Activity Unit}
      (hi : l.stances i = .stirred a rest next) (hfree : l.owner = none) :
      Step l i { l.move i (.amid a rest next) with owner := some i }
  /-- An action that took several signals is over. -/
  | leaves {a : Action} {reply : a.Reply} {next : a.Reply → Activity Unit}
      (hi : l.stances i = .amid a (.done reply) next) :
      Step l i { l.move i (.busy (next reply)) with log := .ended i a reply :: l.log }

/-- What can become of a lobby, in whichever order the parties take their turns. -/
inductive IsReachable : Lobby ι σ → Prop where
  | start (world : World σ) : IsReachable (.start world)
  | step {l l' : Lobby ι σ} {i : ι} (hl : IsReachable l) (h : Step l i l') : IsReachable l'

variable {l l' : Lobby ι σ} {i j : ι}

/-- A turn leaves the others where they are, or stirs them. -/
theorem Step.stances_of_ne (h : Step l i l') (hj : j ≠ i) :
    l'.stances j = l.stances j ∨ l'.stances j = (l.stances j).stir := by
  cases h with
  | notifies => exact .inr (stances_move_of_ne hj _)
  | drops => exact .inl rfl
  | begins | acts | stores | enters | locks | unlocks | compares | parks | expires | relocks
  | leaves => exact .inl (stances_move_of_ne hj _)

/-- At most one occurrence is added to the log, and it is the party's own. -/
theorem Step.log_eq (h : Step l i l') :
    l'.log = l.log ∨ ∃ o : Occurrence ι, o.who = i ∧ l'.log = o :: l.log := by
  cases h with
  | begins | locks | unlocks | expires | relocks => exact .inl rfl
  | acts | drops | stores | enters | compares | notifies | parks | leaves =>
    exact .inr ⟨_, rfl, rfl⟩

end Lobby

end LedSequencer
