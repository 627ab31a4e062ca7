import LedSequencer.Playback.Player
import LedSequencer.Playback.Session
import LedSequencer.Playback.World
import Mathlib.Data.List.Induction
import Mathlib.Logic.Function.Basic

/-! # Ensembles

  Several parties share one `World`: players, sessions, installers and closers, each on
  a thread of its own. A party carries out its activities action by action, and
  between two of its actions the others may come any number of times. A schedule says
  whose turn it is; every schedule is allowed.

  * **Parties** and what they can be ordered to do.
  * **Turns**: one turn of one party, and whole schedules.
  * **What happens in a turn**: `Happens` lists the ways in which a turn changes
    anything, and `play_induction` carries what they all keep through a schedule.
-/

namespace LedSequencer

/-! ### Parties -/

/-- What comes of an activity that a party has carried out. -/
inductive Outcome where
  /-- A player has taken a step. -/
  | stepped (op : Operation) (player : Player)
  /-- A session has handled a line. -/
  | handled (result : Except CompileError Unit) (session : Session)
  /-- A sequence has been made the active one. -/
  | installed
  /-- The sequencer has been shut down, by this call or before. -/
  | closed (isFirst : Bool)
  /-- A new player has been made. -/
  | entered (player : Player)
deriving DecidableEq

/-- Where a party stands. -/
inductive Party where
  /-- A player between two steps. -/
  | player (p : Player)
  /-- A session between two lines. -/
  | session (s : Session)
  /-- Someone who makes sequences active. -/
  | installer
  /-- Someone who shuts the sequencer down. -/
  | closer
  /-- Someone who is yet to become a player. -/
  | newcomer
  /-- A party in the middle of an activity, with what is left of it. -/
  | busy (rest : Activity Outcome)

/-- Where a party stands after an activity. -/
def Outcome.party : Outcome → Party
  | .stepped _ p => .player p
  | .handled _ s => .session s
  | .installed => .installer
  | .closed _ => .closer
  | .entered p => .player p

/-- What a party can be ordered to begin. -/
inductive Order where
  /-- A player takes a step. -/
  | step
  /-- A session handles a line. -/
  | line (text : String)
  /-- An installer makes a sequence active. -/
  | install (sequence : Sequence)
  /-- A closer shuts the sequencer down. -/
  | shutDown
  /-- A newcomer becomes a player of the active sequence. -/
  | enter
deriving DecidableEq

namespace Activity

/-- A step of a player. -/
def ofStep (p : Player) : Activity Outcome := do
  let stepped ← p.step
  pure (.stepped stepped.1 stepped.2)

/-- A line of a session. -/
def ofLine (s : Session) (text : String) : Activity Outcome := do
  let handled ← s.handleLine text
  pure (.handled handled.1 handled.2)

/-- The work of an installer. -/
def ofInstall (sequence : Sequence) : Activity Outcome := do
  install sequence
  pure .installed

/-- The work of a closer. -/
def ofShutDown (pins : List Pin) : Activity Outcome := do
  let isFirst ← shutDown pins
  pure (.closed isFirst)

/-- The making of a player. -/
def ofEnter : Activity Outcome := do
  let active ← load
  pure (.entered (.start active))

end Activity

/-- The activity that an order asks of a party, when the order is for such a party. -/
def Order.activity (map : ChannelMap) : Order → Party → Option (Activity Outcome)
  | .step, .player p => some (.ofStep p)
  | .line text, .session s => some (.ofLine s text)
  | .install sequence, .installer => some (.ofInstall sequence)
  | .shutDown, .closer => some (.ofShutDown map.pins)
  | .enter, .newcomer => some .ofEnter
  | _, _ => none

/-- Who begins something is at rest. -/
theorem Order.ne_busy {map : ChannelMap} {order : Order} {party : Party}
    {activity : Activity Outcome} (horder : order.activity map party = some activity)
    (rest : Activity Outcome) : party ≠ .busy rest := by
  rintro rfl
  cases order <;> cases horder

/-! ### Turns -/

deriving instance DecidableEq for Action

instance : (a : Action) → DecidableEq a.Reply
  | .load => inferInstanceAs (DecidableEq Published)
  | .publish _ | .wake | .close => inferInstanceAs (DecidableEq Unit)
  | .sleep _ | .yield | .report _ => inferInstanceAs (DecidableEq Unit)
  | .await _ | .isClosing => inferInstanceAs (DecidableEq Bool)
  | .bank (.configureAll _) | .bank (.set _ _) => inferInstanceAs (DecidableEq (Option PinError))
  | .bank (.allOff _) => inferInstanceAs (DecidableEq Unit)
  | .bank (.seal _) => inferInstanceAs (DecidableEq Bool)

/-- What the log of an ensemble tells. -/
inductive Entry (ι : Type) where
  /-- A party begins what it was ordered to do. -/
  | began (who : ι) (order : Order)
  /-- A party carries out an action, with its reply. -/
  | did (who : ι) (action : Action) (reply : action.Reply)
  /-- A party has carried its activity out. -/
  | ended (who : ι) (outcome : Outcome)
deriving DecidableEq

/-- Whose turn an entry tells of. -/
def Entry.who {ι : Type} : Entry ι → ι
  | .began who _ => who
  | .did who _ _ => who
  | .ended who _ => who

/-- Parties over a shared state. -/
structure Ensemble (ι σ : Type) where
  /-- The shared state. -/
  world : World σ
  /-- Where each party stands. -/
  parties : ι → Party
  /-- What has happened, in order. -/
  log : List (Entry ι)

/-- What a party does in its turn. -/
inductive Move where
  /-- It begins what it is ordered to do. -/
  | begin (order : Order)
  /-- It goes on with its activity by one action, or ends it. -/
  | proceed

namespace Ensemble

variable {ι σ : Type} [DecidableEq ι]

/-- An ensemble with nothing in its log. -/
def start (world : World σ) (parties : ι → Party) : Ensemble ι σ := { world, parties, log := [] }

/-- Changes the shared state and where one party stands, and adds to the log. -/
def record (e : Ensemble ι σ) (world : World σ) (who : ι) (party : Party) (entry : Entry ι) :
    Ensemble ι σ :=
  { world, parties := Function.update e.parties who party, log := e.log ++ [entry] }

section

variable {e : Ensemble ι σ} {world : World σ} {who i : ι} {party : Party} {entry : Entry ι}

@[simp] theorem world_record : (e.record world who party entry).world = world := rfl

@[simp] theorem log_record : (e.record world who party entry).log = e.log ++ [entry] := rfl

@[simp] theorem parties_record_self : (e.record world who party entry).parties who = party := by
  simp [record]

theorem parties_record_of_ne (hi : i ≠ who) :
    (e.record world who party entry).parties i = e.parties i := by
  simp [record, hi]

/-- Something holds of where everyone stands after one party has moved when it holds of that party
    and of the others where they stood. -/
theorem forall_parties_record_iff {P : ι → Party → Prop} :
    (∀ i, P i ((e.record world who party entry).parties i)) ↔
      P who party ∧ ∀ i ≠ who, P i (e.parties i) :=
  Function.forall_update_iff e.parties P

end

variable [PinDriver σ]

/-- The turn of one party. A party that is in no position for its move lets the turn pass. -/
def turn (map : ChannelMap) (e : Ensemble ι σ) (who : ι) : Move → Ensemble ι σ
  | .begin order =>
    match order.activity map (e.parties who) with
    | some activity => e.record e.world who (.busy activity) (.began who order)
    | none => e
  | .proceed =>
    match e.parties who with
    | .busy (.ask action next) =>
      let acted := e.world.act action
      e.record acted.2 who (.busy (next acted.1)) (.did who action acted.1)
    | .busy (.done outcome) => e.record e.world who outcome.party (.ended who outcome)
    | _ => e

/-- Plays a schedule: the turns of parties in order. -/
def play (map : ChannelMap) (e : Ensemble ι σ) (schedule : List (ι × Move)) : Ensemble ι σ :=
  schedule.foldl (fun e t => e.turn map t.1 t.2) e

/-! ### What happens in a turn -/

/-- The ways in which the turn of a party changes an ensemble. -/
inductive Happens (map : ChannelMap) (e : Ensemble ι σ) (who : ι) :
    Entry ι → Ensemble ι σ → Prop where
  | began (order : Order) (activity : Activity Outcome)
      (horder : order.activity map (e.parties who) = some activity) :
      Happens map e who (.began who order)
        (e.record e.world who (.busy activity) (.began who order))
  | did (action : Action) (next : action.Reply → Activity Outcome)
      (hbusy : e.parties who = .busy (.ask action next)) :
      Happens map e who (.did who action (e.world.act action).1)
        (e.record (e.world.act action).2 who (.busy (next (e.world.act action).1))
          (.did who action (e.world.act action).1))
  | ended (outcome : Outcome) (hbusy : e.parties who = .busy (.done outcome)) :
      Happens map e who (.ended who outcome)
        (e.record e.world who outcome.party (.ended who outcome))

variable {map : ChannelMap} {e e' : Ensemble ι σ} {who : ι} {entry : Entry ι}

/-- A turn changes nothing, or something happens in it. -/
theorem turn_eq_or_happens (map : ChannelMap) (e : Ensemble ι σ) (who : ι) (m : Move) :
    e.turn map who m = e ∨ ∃ entry, Happens map e who entry (e.turn map who m) := by
  cases m with
  | begin order =>
    cases horder : order.activity map (e.parties who) with
    | none =>
      left
      simp only [turn, horder]
    | some activity =>
      have hturn : e.turn map who (.begin order) =
          e.record e.world who (.busy activity) (.began who order) := by simp only [turn, horder]
      rw [hturn]
      exact .inr ⟨_, .began order activity horder⟩
  | proceed =>
    match hparty : e.parties who with
    | .busy (.ask action next) =>
      have hturn : e.turn map who .proceed = e.record (e.world.act action).2 who
          (.busy (next (e.world.act action).1)) (.did who action (e.world.act action).1) := by
        simp only [turn, hparty]
      rw [hturn]
      exact .inr ⟨_, .did action next hparty⟩
    | .busy (.done outcome) =>
      have hturn : e.turn map who .proceed =
          e.record e.world who outcome.party (.ended who outcome) := by simp only [turn, hparty]
      rw [hturn]
      exact .inr ⟨_, .ended outcome hparty⟩
    | .player _ | .session _ | .installer | .closer | .newcomer =>
      left
      simp only [turn, hparty]

theorem Happens.log_eq (h : Happens map e who entry e') : e'.log = e.log ++ [entry] := by
  cases h <;> rfl

theorem Happens.who_eq (h : Happens map e who entry e') : entry.who = who := by
  cases h <;> rfl

/-- The others stay where they stand. -/
theorem Happens.parties_of_ne (h : Happens map e who entry e') {i : ι} (hi : i ≠ who) :
    e'.parties i = e.parties i := by
  cases h <;> exact parties_record_of_ne hi

@[simp] theorem play_nil (map : ChannelMap) (e : Ensemble ι σ) : e.play map [] = e := rfl

theorem play_cons (map : ChannelMap) (e : Ensemble ι σ) (who : ι) (m : Move)
    (rest : List (ι × Move)) :
    e.play map ((who, m) :: rest) = (e.turn map who m).play map rest := rfl

theorem play_append (map : ChannelMap) (e : Ensemble ι σ) (schedule more : List (ι × Move)) :
    e.play map (schedule ++ more) = (e.play map schedule).play map more := List.foldl_append

/-- What every turn keeps is kept by a schedule. -/
theorem play_induction {P : Ensemble ι σ → Prop}
    (hstep : ∀ e who entry e', P e → Happens map e who entry e' → P e') (h : P e)
    (schedule : List (ι × Move)) : P (e.play map schedule) := by
  induction schedule generalizing e with
  | nil => exact h
  | cons t rest ih =>
    apply ih
    show P (e.turn map t.1 t.2)
    rcases turn_eq_or_happens map e t.1 t.2 with heq | ⟨entry, hhappens⟩
    · rw [heq]
      exact h
    · exact hstep e t.1 entry _ h hhappens

/-- A schedule only adds to the log. -/
theorem exists_log_play (map : ChannelMap) (e : Ensemble ι σ) (schedule : List (ι × Move)) :
    ∃ more, (e.play map schedule).log = e.log ++ more := by
  refine play_induction (P := fun e' => ∃ more, e'.log = e.log ++ more) ?_ ⟨[], by simp⟩ schedule
  rintro e₁ who entry e₂ ⟨more, hlog⟩ hstep
  refine ⟨more ++ [entry], ?_⟩
  rw [hstep.log_eq, hlog, List.append_assoc]

/-- Every entry that a schedule has added to the log tells of one of its turns. -/
theorem exists_turn_of_log {schedule : List (ι × Move)} {x y : List (Entry ι)}
    (h : (e.play map schedule).log = e.log ++ (x ++ entry :: y)) :
    ∃ (before : List (ι × Move)) (who : ι) (m : Move) (after : List (ι × Move)),
      schedule = before ++ (who, m) :: after ∧ (e.play map before).log = e.log ++ x ∧
      Happens map (e.play map before) who entry ((e.play map before).turn map who m) := by
  induction schedule generalizing e x with
  | nil =>
    have hlength := congrArg List.length h
    simp only [play_nil, List.length_append, List.length_cons] at hlength
    omega
  | cons t rest ih =>
    obtain ⟨who, m⟩ := t
    rw [play_cons] at h
    rcases turn_eq_or_happens map e who m with heq | ⟨entry', hhappens⟩
    · -- the first turn adds nothing
      rw [heq] at h
      obtain ⟨before, who', m', after, hschedule, hlog, hturn⟩ := ih h
      refine ⟨(who, m) :: before, who', m', after, by rw [hschedule]; rfl, ?_⟩
      rw [play_cons, heq]
      exact ⟨hlog, hturn⟩
    · have hfirst := hhappens.log_eq
      obtain ⟨more, hmore⟩ := exists_log_play map (e.turn map who m) rest
      have hsplit : entry' :: more = x ++ entry :: y := by
        rw [hmore, hfirst, List.append_assoc] at h
        exact List.append_cancel_left h
      cases x with
      | nil =>
        -- the first turn adds the entry
        obtain ⟨hentry, _⟩ := List.cons.inj hsplit
        rw [hentry] at hhappens
        exact ⟨[], who, m, rest, rfl, by simp, hhappens⟩
      | cons first x =>
        -- a later turn adds it
        obtain ⟨hentry, htail⟩ := List.cons.inj hsplit
        rw [htail] at hmore
        obtain ⟨before, who', m', after, hschedule, hlog, hturn⟩ := ih hmore
        refine ⟨(who, m) :: before, who', m', after, by rw [hschedule]; rfl, ?_, hturn⟩
        rw [play_cons, hlog, hfirst, hentry, List.append_assoc]
        rfl

end Ensemble

end LedSequencer
