import LedSequencer.Proofs.Composition
import LedSequencer.Proofs.Histories

/-! # Rejected lines

  A line is rejected in the midst of its compilation. All pins have been switched off by
  then, and the line may already have selected another LED. Still, nothing of it shows
  later on: whatever comes after it goes the same way as without it
  (`rejected_line_unseen`).

  * **Occasions**: what can come after a line, and what each of them shows.
  * **Outlooks**: all that decides what occasions show. The driver and what has left the
    sequencer are no part of it.
  * **Rejection**: it leaves the outlook as it is.
-/

namespace LedSequencer

/-! ### Occasions -/

/-- Something that can come after a line: an episode, or the end. -/
inductive Occasion where
  /-- An episode. -/
  | episode (e : Episode)
  /-- The sequencer is shut down. -/
  | shutDown

/-- What an occasion shows. -/
structure Showing where
  /-- What came of it: a result with the session after it, an operation with the player after it, or
      whether a shutdown was the first one. -/
  outcome : Outcome
  /-- The sleeps and yields. -/
  pacing : List Mark

namespace Rig

variable {σ : Type} [PinDriver σ]

/-- Shuts the sequencer down; answers whether this was the first time. -/
def shutDown (r : Rig σ) : Bool × Rig σ :=
  let closed := r.world.run (Activity.shutDown r.session.map.pins)
  (closed.1, { r with world := closed.2 })

/-- Goes through an occasion. -/
def meet (r : Rig σ) : Occasion → Outcome × Rig σ
  | .episode (.line text) =>
    let handled := r.handle text
    (.handled handled.1 handled.2.session, handled.2)
  | .episode (.install sequence) => (.installed, r.episode (.install sequence))
  | .episode .step =>
    let stepped := r.step
    (.stepped stepped.1 stepped.2.player, stepped.2)
  | .shutDown =>
    let closed := r.shutDown
    (.closed closed.1, closed.2)

/-- Goes through occasions in order; answers with what each of them shows. -/
def attend : List Occasion → Rig σ → List Showing × Rig σ
  | [], r => ([], r)
  | o :: rest, r =>
    let met := r.meet o
    let attended := attend rest met.2
    ({ outcome := met.1, pacing := met.2.world.pacing.drop r.world.pacing.length } :: attended.1,
      attended.2)

end Rig

/-! ### Outlooks -/

/-- All that decides what occasions show. -/
structure Outlook where
  /-- The active sequence with its identity. -/
  active : Published
  /-- The player, with the sequence it holds and its place. -/
  player : Player
  /-- The session with the selected LED. -/
  session : Session
  /-- Whether the sequencer closes. -/
  closing : Bool
  /-- Whether the outputs are sealed. -/
  isSealed : Bool

/-- The outlook of a rig. -/
def Rig.outlook {σ : Type} (r : Rig σ) : Outlook where
  active := r.world.active
  player := r.player
  session := r.session
  closing := r.world.closing
  isSealed := r.world.isSealed

@[simp] theorem Rig.session_outlook {σ : Type} (r : Rig σ) : r.outlook.session = r.session := rfl

@[simp] theorem Rig.player_outlook {σ : Type} (r : Rig σ) : r.outlook.player = r.player := rfl

namespace Outlook

/-- The effects of an occasion, apart from those of a shutdown. -/
def effects (o : Outlook) : Occasion → List Action
  | .episode (.line text) => o.session.effects text
  | .episode (.install sequence) => [.publish sequence]
  | .episode .step => (o.player.adopt o.active).effects
  | .shutDown => []

/-- What comes of an occasion. -/
def outcome (o : Outlook) : Occasion → Outcome
  | .episode (.line text) => .handled (o.session.afterLine text).1 (o.session.afterLine text).2
  | .episode (.install _) => .installed
  | .episode .step => .stepped (o.player.adopt o.active).next (o.player.adopt o.active).advance
  | .shutDown => .closed !o.isSealed

/-- The outlook after an occasion. -/
def after (o : Outlook) : Occasion → Outlook
  | .episode (.line text) =>
    { o with
      active := ((o.session.effects text).flatMap Action.published).foldl Published.next o.active
      session := (o.session.afterLine text).2 }
  | .episode (.install sequence) => { o with active := o.active.next sequence }
  | .episode .step => { o with player := (o.player.adopt o.active).advance }
  | .shutDown => { o with closing := true, isSealed := true }

/-- What occasions show, one after the other. -/
def showings : Outlook → List Occasion → List Showing
  | _, [] => []
  | o, occasion :: rest =>
    { outcome := o.outcome occasion, pacing := (o.effects occasion).flatMap Action.pacing } ::
      (o.after occasion).showings rest

end Outlook

namespace Rig

variable {σ : Type} [PinDriver σ]

/-- The outlook decides what an occasion shows, and what the outlook is after it. -/
theorem meet_outlook (r : Rig σ) (o : Occasion) :
    (r.meet o).1 = r.outlook.outcome o ∧ (r.meet o).2.outlook = r.outlook.after o ∧
      (r.meet o).2.world.pacing =
        r.world.pacing ++ (r.outlook.effects o).flatMap Action.pacing := by
  -- all but a shutdown are passages, which take no account of the driver
  match o with
  | .episode (.line text) =>
    obtain ⟨hanswer, hsession, hpassed⟩ := r.passed_handle text
    refine ⟨?_, ?_, hpassed.pacing⟩
    · show Outcome.handled (r.handle text).1 (r.handle text).2.session = _
      rw [hanswer, hsession]
      rfl
    · show (r.handle text).2.outlook = _
      unfold outlook
      rw [hsession, player_handle, hpassed.active, hpassed.closing, hpassed.isSealed]
      rfl
  | .episode (.install s) =>
    have hpassed := World.passed_install s r.world
    refine ⟨rfl, ?_, hpassed.pacing⟩
    show outlook { r with world := (r.world.run (Activity.install s)).2 } = _
    unfold outlook
    rw [hpassed.active, hpassed.closing, hpassed.isSealed]
    rfl
  | .episode .step =>
    obtain ⟨hop, _, hplayer, hpassed⟩ := r.passed_step
    refine ⟨?_, ?_, hpassed.pacing⟩
    · show Outcome.stepped r.step.1 r.step.2.player = _
      rw [hop, hplayer]
      rfl
    · show r.step.2.outlook = _
      unfold outlook
      rw [hplayer, session_step, hpassed.active, hpassed.closing, hpassed.isSealed,
        Player.published_effects]
      rfl
  | .shutDown =>
    obtain ⟨hanswer, hclosing, hsealed, hactive, hpacing⟩ :=
      World.run_shutDown r.session.map.pins r.world
    refine ⟨congrArg Outcome.closed hanswer, ?_, hpacing.trans (List.append_nil _).symm⟩
    show outlook { r with world := (r.world.run (Activity.shutDown r.session.map.pins)).2 } = _
    unfold outlook
    rw [hclosing, hsealed, hactive]
    rfl

/-- The outlook decides what occasions show, however many there are. -/
theorem attend_outlook (r : Rig σ) (occasions : List Occasion) :
    (r.attend occasions).1 = r.outlook.showings occasions ∧
      (r.attend occasions).2.outlook = occasions.foldl Outlook.after r.outlook := by
  induction occasions generalizing r with
  | nil => exact ⟨rfl, rfl⟩
  | cons o rest ih =>
    obtain ⟨houtcome, hafter, hpacing⟩ := r.meet_outlook o
    obtain ⟨hshowings, houtlook⟩ := ih (r.meet o).2
    rw [hafter] at hshowings houtlook
    refine ⟨?_, houtlook⟩
    rw [attend, Outlook.showings, hshowings, houtcome, hpacing, List.drop_left]

/-! ### Rejection -/

/-- A rejected line leaves the outlook as it is. -/
theorem outlook_of_rejected {r : Rig σ} {line : String} {error : CompileError}
    (h : (r.handle line).1 = .error error) :
    (r.handle line).2.outlook = r.outlook ∧
      r.world.Passed (r.handle line).2.world [.bank (.allOff r.session.map.pins)] := by
  obtain ⟨hanswer, hsession, hpassed⟩ := r.passed_handle line
  cases hcompiled : compile line r.session.map r.session.led with
  | ok compiled =>
    rw [hanswer, Session.afterLine_of_ok hcompiled] at h
    cases h
  | error error =>
    -- the LED that the compilation had reached is dropped with it
    rw [Session.afterLine_of_error hcompiled] at hsession
    rw [Session.effects_of_error hcompiled] at hpassed
    refine ⟨?_, hpassed⟩
    unfold outlook
    rw [hsession, player_handle, hpassed.active, hpassed.closing, hpassed.isSealed]
    rfl

/-- **A rejected line goes unseen.** It leaves the active sequence with its identity, the player,
    the session with its LED, the seal and the closing flag as they are, and neither sleeps nor
    yields. All that happens is that the driver, unless it is sealed off, is called once for each
    pin of the map, in order, to switch it off. Whatever comes next, it has the same outcomes,
    sleeps and yields as without the line, and leads to the same active sequence, player, session
    and flags. -/
theorem rejected_line_unseen (r : Rig σ) {line : String} {error : CompileError}
    (h : (r.handle line).1 = .error error) :
    let rejected := (r.handle line).2
    (rejected.outlook = r.outlook ∧ rejected.world.pacing = r.world.pacing ∧
      ∃ attempts, rejected.world.calls = r.world.calls ++ attempts ∧
        attempts.map Prod.fst =
          if r.world.isSealed then [] else r.session.map.pins.map fun pin => .set pin .low) ∧
    ∀ occasions, (rejected.attend occasions).1 = (r.attend occasions).1 ∧
      (rejected.attend occasions).2.outlook = (r.attend occasions).2.outlook := by
  intro rejected
  obtain ⟨houtlook, hpassed⟩ := outlook_of_rejected h
  obtain ⟨attempts, hcalls, hmap, _⟩ := hpassed.called
  have hsame : rejected.outlook = r.outlook := houtlook
  constructor
  · refine ⟨hsame, hpassed.pacing.trans (List.append_nil _), attempts, hcalls, ?_⟩
    rw [hmap, World.letThrough_eq, List.flatMap_singleton]
    rfl
  · intro occasions
    obtain ⟨hshowings, hafter⟩ := rejected.attend_outlook occasions
    obtain ⟨hshowings', hafter'⟩ := r.attend_outlook occasions
    rw [hshowings, hshowings', hafter, hafter', hsame]
    exact ⟨rfl, rfl⟩

/-- A line that selects the second LED of `duo` and switches one of its pins off over and over. -/
def flood (letters : Nat) : String := "B:" ++ " " ++ String.ofList (List.replicate letters 'g')

theorem emission_flood (letters : Nat) :
    emission duo 1 (List.replicate letters 'g') = List.replicate letters (.off ⟨2⟩) := by
  have hg : ∀ c ∈ List.replicate letters 'g', c = 'g' := fun c hc => (List.mem_replicate.1 hc).2
  have hoff : List.replicate letters 'g' ≠ ['-'] := by
    intro heq
    have hdash := hg '-' (heq ▸ List.mem_singleton_self '-')
    cases hdash
  have hletters : (List.replicate letters 'g').all isAlphabetic = true := by
    rw [List.all_eq_true]
    intro c hc
    rw [hg c hc]
    decide
  have hemits : letterEmission { name := "B", channels := [{ letter := 'g', pin := ⟨2⟩ },
      { letter := 'r', pin := ⟨3⟩ }] } 'g' = [.off ⟨2⟩] := by decide
  rw [emission, if_neg hoff, if_pos hletters]
  show List.flatMap _ [_] = _
  rw [List.flatMap_singleton, List.flatMap_replicate, hemits, List.flatten_replicate_singleton]

theorem compile_flood {letters : Nat} (h : 1000 ≤ letters) :
    compile (flood letters) duo 0 = .error (.tooLong 1000) := by
  have hne : letters ≠ 0 := by omega
  have hselect : words "B:".toList = [['B', ':']] := by decide
  have hled : ledAfterAll duo 0 [['B', ':']] = 1 := by decide
  have hword : words (String.ofList (List.replicate letters 'g')).toList =
      [List.replicate letters 'g'] := by
    rw [String.toList_ofList]
    apply words_of_not_isBlank
    · intro hnil
      exact hne (List.replicate_eq_nil_iff 'g' |>.1 hnil)
    · intro c hc
      rw [(List.mem_replicate.1 hc).2]
      decide
  have hgap : ∀ c ∈ " ".toList, isBlank c = true := List.all_eq_true.1 (by decide)
  have hops : emissions duo 1 [List.replicate letters 'g'] = List.replicate letters (.off ⟨2⟩) := by
    rw [emissions, emission_flood]
    exact List.append_nil _
  apply compile_of_le
  rw [flood, words_pieces (by decide) hgap, hselect, hword, emissions_append, hled, hops,
    List.length_append, List.length_replicate]
  exact Nat.le_trans h (Nat.le_add_left _ _)

/-- While the first LED is played, a line selects the second one and asks for too much. -/
theorem rejected_line_unseen_flood :
    let r := (start duo Hardware.nothing).after [.line "R 5s", .step]
    let rejected := (r.handle (flood 1000)).2
    (r.handle (flood 1000)).1 = .error (.tooLong 1000) ∧
      rejected.session.led = 0 ∧ rejected.player.cursor = 1 ∧
      (∃ attempts, rejected.world.calls = r.world.calls ++ attempts ∧
        attempts.map Prod.fst = [.set ⟨1⟩ .low, .set ⟨2⟩ .low, .set ⟨3⟩ .low]) ∧
      ∀ occasions, (rejected.attend occasions).1 = (r.attend occasions).1 ∧
        (rejected.attend occasions).2.outlook = (r.attend occasions).2.outlook := by
  intro r rejected
  have hsession : r.session = { map := duo, led := 0 } := by decide +kernel
  have hcursor : r.player.cursor = 1 := by decide +kernel
  have hopen : r.world.isSealed = false := by decide +kernel
  have hrejected : (r.handle (flood 1000)).1 = .error (.tooLong 1000) := by
    obtain ⟨hanswer, _, _⟩ := r.passed_handle (flood 1000)
    have hcompiled : compile (flood 1000) r.session.map r.session.led = .error (.tooLong 1000) := by
      rw [hsession]
      exact compile_flood (Nat.le_refl 1000)
    rw [hanswer, Session.afterLine_of_error hcompiled]
  obtain ⟨⟨houtlook, _, attempts, hcalls, hmap⟩, hsame⟩ := rejected_line_unseen r hrejected
  have hled : rejected.session = r.session := by rw [← session_outlook, houtlook, session_outlook]
  have hplayer : rejected.player = r.player := by rw [← player_outlook, houtlook, player_outlook]
  refine ⟨hrejected, ?_, ?_, ⟨attempts, hcalls, ?_⟩, hsame⟩
  · rw [hled, hsession]
  · rw [hplayer, hcursor]
  · rw [hmap, hopen, hsession]
    rfl

end Rig

end LedSequencer
