import LedSequencer.Proofs.Adoption
import LedSequencer.Proofs.Shutdown

/-! # The handling of lines

  One player and one session share a sequencer. This module follows the session
  through the actions of a line, in every order with those of the player: the sweep
  that switches all pins off, and, when the line is accepted, the publication of its
  sequence.

  * **Two parties**: one player and one session.
  * **Stages**: how far the session has come, and what the log holds then.
  * **Runs**: every line that a run has begun is handled like that.
-/

namespace LedSequencer

/-! ### Two parties -/

/-- The two that share a sequencer while it runs. -/
inductive Chair where
  /-- The player. -/
  | player
  /-- The session. -/
  | session
deriving DecidableEq

/-- What each of the two is. -/
def Chair.role : Chair → Role
  | .player => .player
  | .session => .session

/-- A sequencer with one player and one session, at the start. -/
def duet {σ : Type} (map : ChannelMap) (driver : σ) : Ensemble Chair σ :=
  sequencer map driver Chair.role

theorem duet_eq_withPlayer {σ : Type} (map : ChannelMap) (driver : σ) :
    duet map driver = Ensemble.withPlayer (.start driver) (fun i => i.role.party map) .player := by
  have hparties : Function.update (fun i : Chair => i.role.party map) .player
      (.player (.start Published.first)) = fun i => i.role.party map :=
    Function.update_eq_self Chair.player _
  show Ensemble.start _ _ = Ensemble.start _ _
  exact congrArg (Ensemble.start _) hparties.symm

/-! ### Stages -/

/-- The conduct of someone who leaves the shared state as it is. -/
def passing : Conduct Action Action.Reply where
  allows a := a.isPassing = true
  expects _ _ := True

theorem passing_lenient : passing.Lenient := fun _ ha => ha

/-- The line was accepted. -/
def Outcome.IsAccepted (o : Outcome) : Prop := ∃ s, o = .handled (.ok ()) s

/-- The line was rejected. -/
def Outcome.IsRejected (o : Outcome) : Prop := ∃ error s, o = .handled (.error error) s

namespace Activity

/-- What is left of a line of a session once all pins have been switched off. -/
def ofSweep (s : Session) (text : String) : Activity Outcome := do
  let handled ← s.afterSweep text
  pure (.handled handled.1 handled.2)

theorem ofLine_eq (s : Session) (text : String) :
    ofLine s text = .ask (.bank (.allOff s.map.pins)) fun _ => ofSweep s text := rfl

/-- An accepted line is certain to make its sequence active. -/
theorem comesTo_ofSweep {s : Session} {text : String} {compiled : Compiled}
    (h : compile text s.map s.led = .ok compiled) :
    (ofSweep s text).ComesTo passing (.publish compiled.sequence) fun _ rest =>
      rest.Follows passing Outcome.IsAccepted := by
  unfold ofSweep Session.afterSweep
  have hresult : (compilation text s.map s.led).result = .ok compiled := h
  rw [Dialogue.bind_assoc]
  refine (follows_reportAll passing_lenient _).comesTo fun _ _ => ?_
  rw [hresult]
  refine .later _ _ rfl fun _ _ => .now _ fun _ => ⟨rfl, fun _ _ => ?_⟩
  exact ⟨_, rfl⟩

/-- A rejected line makes nothing active. -/
theorem follows_ofSweep {s : Session} {text : String} {error : CompileError}
    (h : compile text s.map s.led = .error error) :
    (ofSweep s text).Follows passing Outcome.IsRejected := by
  unfold ofSweep Session.afterSweep
  have hresult : (compilation text s.map s.led).result = .error error := h
  rw [Dialogue.bind_assoc]
  apply (follows_reportAll passing_lenient _).bind
  intro _ _
  rw [hresult]
  exact ⟨error, s, rfl⟩

end Activity

/-- The sweep of a line: all pins are switched off. -/
def sweep (map : ChannelMap) : Entry Chair := .did .session (.bank (.allOff map.pins)) ()

/-- The publication of the sequence of a line. -/
def publication (s : Sequence) : Entry Chair := .did .session (.publish s) ()

/-- Whether a session begins a line. -/
def Entry.isLine : Entry Chair → Bool
  | .began .session _ => true
  | _ => false

theorem Entry.isLine_of_who {entry : Entry Chair} (h : entry.who = .player) :
    entry.isLine = false := by
  cases entry with
  | began who order =>
    cases h
    rfl
  | did | ended => rfl

/-- What the two may do while the session handles a line. -/
def Entry.IsRegular (s : Session) (text : String) : Entry Chair → Prop
  | .did .player a _ => a.isPassing = true ∨ a = .load ∨ ∃ pin level, a = .bank (.set pin level)
  | .did .session a _ => a.isPassing = true ∨ a = .bank (.allOff s.map.pins) ∨
      ∃ compiled, compile text s.map s.led = .ok compiled ∧ a = .publish compiled.sequence
  | _ => True

namespace Entry

variable {s : Session} {text : String} {who : Chair}

/-- Only the sequence of the line is published. -/
theorem IsRegular.publish {t : Sequence} {reply : Action.Reply (.publish t)}
    (h : (Entry.did who (.publish t) reply).IsRegular s text) :
    ∃ compiled, compile text s.map s.led = .ok compiled ∧ t = compiled.sequence := by
  cases who with
  | player =>
    rcases h with hpassing | hload | ⟨_, _, hset⟩
    · cases hpassing
    · cases hload
    · cases hset
  | session =>
    rcases h with hpassing | hoff | ⟨compiled, hcompiled, hpublish⟩
    · cases hpassing
    · cases hoff
    · cases hpublish
      exact ⟨compiled, hcompiled, rfl⟩

/-- Only the player drives single pins. -/
theorem IsRegular.drive {pin : Pin} {level : Level} {reply : Action.Reply (.bank (.set pin level))}
    (h : (Entry.did who (.bank (.set pin level)) reply).IsRegular s text) : who = .player := by
  cases who with
  | player => rfl
  | session =>
    rcases h with hpassing | hoff | ⟨_, _, hpublish⟩
    · cases hpassing
    · cases hoff
    · cases hpublish

/-- Only the session switches pins off, and it switches all of them off. -/
theorem IsRegular.sweep {pins : List Pin} {reply : Action.Reply (.bank (.allOff pins))}
    (h : (Entry.did who (.bank (.allOff pins)) reply).IsRegular s text) :
    who = .session ∧ pins = s.map.pins := by
  cases who with
  | player =>
    rcases h with hpassing | hload | ⟨_, _, hset⟩
    · cases hpassing
    · cases hload
    · cases hset
  | session =>
    rcases h with hpassing | hoff | ⟨_, _, hpublish⟩
    · cases hpassing
    · cases hoff
      exact ⟨rfl, rfl⟩
    · cases hpublish

end Entry

/-- Where the party of a session stands with a line, and what the log since the line began holds
    then. -/
inductive Handling (s : Session) (text : String) (since : List (Entry Chair)) : Party → Prop where
  | begun : Handling s text since (.busy (.ofLine s text))
  | accepting (compiled : Compiled) (rest : Activity Outcome)
      (hcompiled : compile text s.map s.led = .ok compiled) (hsweep : sweep s.map ∈ since)
      (hrest : rest.ComesTo passing (.publish compiled.sequence) fun _ rest =>
        rest.Follows passing Outcome.IsAccepted) : Handling s text since (.busy rest)
  | accepted (compiled : Compiled) (rest : Activity Outcome)
      (hcompiled : compile text s.map s.led = .ok compiled) (hsweep : sweep s.map ∈ since)
      (hpublication : publication compiled.sequence ∈ since)
      (hrest : rest.Follows passing Outcome.IsAccepted) : Handling s text since (.busy rest)
  | rejected (rest : Activity Outcome) (hrest : rest.Follows passing Outcome.IsRejected) :
      Handling s text since (.busy rest)
  | settled (s' : Session) : Handling s text since (.session s')

section

variable {s : Session} {text : String} {since since' : List (Entry Chair)} {party : Party}

theorem Handling.mono (h : Handling s text since party) (hsub : since ⊆ since') :
    Handling s text since' party := by
  cases h with
  | begun => exact .begun
  | accepting compiled rest hcompiled hsweep hrest =>
    exact .accepting compiled rest hcompiled (hsub hsweep) hrest
  | accepted compiled rest hcompiled hsweep hpublication hrest =>
    exact .accepted compiled rest hcompiled (hsub hsweep) (hsub hpublication) hrest
  | rejected rest hrest => exact .rejected rest hrest
  | settled s' => exact .settled s'

theorem handling_ofSweep (hsweep : sweep s.map ∈ since) :
    Handling s text since (.busy (.ofSweep s text)) := by
  cases hcompile : compile text s.map s.led with
  | ok compiled =>
    exact .accepting compiled _ hcompile hsweep (Activity.comesTo_ofSweep hcompile)
  | error error => exact .rejected _ (Activity.follows_ofSweep hcompile)

/-- An action of the session is regular and takes the line further. -/
theorem Handling.did {a : Action} {next : a.Reply → Activity Outcome}
    (h : Handling s text since (.busy (.ask a next))) (reply : a.Reply) :
    (Entry.did Chair.session a reply).IsRegular s text ∧
      Handling s text (since ++ [.did .session a reply]) (.busy (next reply)) := by
  have hsub : since ⊆ since ++ [.did .session a reply] := List.subset_append_left since _
  have hnew : .did .session a reply ∈ since ++ [.did .session a reply] :=
    List.mem_append_right since (List.mem_singleton.2 rfl)
  generalize hparty : Party.busy (.ask a next) = party at h
  cases h with
  | begun =>
    rw [Activity.ofLine_eq] at hparty
    cases hparty
    exact ⟨.inr (.inl rfl), handling_ofSweep hnew⟩
  | accepting compiled rest hcompiled hsweep hrest =>
    cases hparty
    -- it is the publication, or an action before it
    cases hrest with
    | now _ hnext =>
      refine ⟨.inr (.inr ⟨compiled, hcompiled, rfl⟩), ?_⟩
      exact .accepted compiled _ hcompiled (hsub hsweep) hnew (hnext reply)
    | later _ _ hallows hnext =>
      refine ⟨.inl hallows, ?_⟩
      exact .accepting compiled _ hcompiled (hsub hsweep) (hnext reply trivial)
  | accepted compiled rest hcompiled hsweep hpublication hrest =>
    cases hparty
    refine ⟨.inl hrest.1, ?_⟩
    exact .accepted compiled _ hcompiled (hsub hsweep) (hsub hpublication) (hrest.2 reply trivial)
  | rejected rest hrest =>
    cases hparty
    exact ⟨.inl hrest.1, .rejected _ (hrest.2 reply trivial)⟩
  | settled s' => cases hparty

/-- A line that has been handled was rejected, or its sequence was made active. -/
theorem Handling.done {outcome : Outcome} (h : Handling s text since (.busy (.done outcome))) :
    outcome.IsRejected ∨ outcome.IsAccepted ∧ ∃ compiled, compile text s.map s.led = .ok compiled ∧
      sweep s.map ∈ since ∧ publication compiled.sequence ∈ since := by
  generalize hparty : Party.busy (.done outcome) = party at h
  cases h with
  | begun =>
    rw [Activity.ofLine_eq] at hparty
    cases hparty
  | accepting compiled rest hcompiled hsweep hrest =>
    cases hparty
    cases hrest
  | accepted compiled rest hcompiled hsweep hpublication hrest =>
    cases hparty
    exact .inr ⟨hrest, compiled, hcompiled, hsweep, hpublication⟩
  | rejected rest hrest =>
    cases hparty
    exact .inl hrest
  | settled s' => cases hparty

theorem Handling.ended {outcome : Outcome} (h : Handling s text since (.busy (.done outcome))) :
    Handling s text since' outcome.party := by
  rcases h.done with ⟨error, s', rfl⟩ | ⟨⟨s', rfl⟩, _⟩
  · exact .settled s'
  · exact .settled s'

end

namespace Ensemble

variable {σ : Type} [PinDriver σ] {map : ChannelMap} {e e' : Ensemble Chair σ} {who : Chair}
variable {entry : Entry Chair} {s : Session} {text : String} {base : List (Entry Chair)}

/-- Since the log was `base`, a session handles a line, as long as it has not begun another, while a
    player plays. -/
structure Handles (s : Session) (text : String) (base : List (Entry Chair))
    (e : Ensemble Chair σ) : Prop where
  account : ∃ p a, e.AccountsFor .player p a
  log : ∃ since, e.log = base ++ since ∧
    ((∃ entry ∈ since, entry.isLine = true) ∨
      (∀ entry ∈ since, entry.IsRegular s text) ∧ Handling s text since (e.parties .session))

theorem Happens.isRegular_player (hstep : Happens map e .player entry e') {p : Player} {a : Account}
    (h : e.AccountsFor .player p a) : entry.IsRegular s text := by
  cases hstep with
  | began order activity horder => trivial
  | ended outcome hbusy => trivial
  | did action next hbusy =>
    have hstance := h.stance
    rw [hbusy] at hstance
    rcases hstance.asks with hload | hallows
    · exact .inr (.inl hload)
    · cases action with
      | bank op =>
        match op with
        | .set pin level => exact .inr (.inr ⟨pin, level, rfl⟩)
        | .configureAll pins | .allOff pins | .seal pins => cases hallows
      | wake | sleep | yield | report => exact .inl rfl
      | load | publish | await | isClosing | close => cases hallows

theorem Happens.handles (hstep : Happens map e who entry e') (h : e.Handles s text base) :
    e'.Handles s text base := by
  obtain ⟨⟨p, a, hplayer⟩, since, hlog, hsince⟩ := h
  obtain ⟨p', hplayer'⟩ := hstep.accountsFor hplayer
  refine ⟨⟨p', _, hplayer'⟩, since ++ [entry], ?_, ?_⟩
  · rw [hstep.log_eq, hlog, List.append_assoc]
  rcases hsince with ⟨line, hmem, hline⟩ | ⟨hregular, hhandling⟩
  · exact .inl ⟨line, List.mem_append_left _ hmem, hline⟩
  have hmore : entry.IsRegular s text → ∀ entry' ∈ since ++ [entry], entry'.IsRegular s text := by
    intro hentry entry' hmem
    rcases List.mem_append.1 hmem with hold | hnew
    · exact hregular entry' hold
    · rw [List.mem_singleton.1 hnew]
      exact hentry
  cases who with
  | player =>
    refine .inr ⟨hmore (hstep.isRegular_player hplayer), ?_⟩
    rw [hstep.parties_of_ne (by decide)]
    exact hhandling.mono (List.subset_append_left since _)
  | session =>
    cases hstep with
    | began order activity horder =>
      -- the next line begins here, and there is nothing more to say
      exact .inl ⟨_, List.mem_append_right _ (List.mem_singleton.2 rfl), rfl⟩
    | did action next hbusy =>
      rw [hbusy] at hhandling
      obtain ⟨hentry, hnext⟩ := hhandling.did (e.world.act action).1
      refine .inr ⟨hmore hentry, ?_⟩
      rw [parties_record_self]
      exact hnext
    | ended outcome hbusy =>
      rw [hbusy] at hhandling
      refine .inr ⟨hmore trivial, ?_⟩
      rw [parties_record_self]
      exact hhandling.ended

/-! ### Runs -/

variable {driver : σ} {schedule : List (Chair × Move)} {past since : List (Entry Chair)}

theorem exists_accountsFor_duet (map : ChannelMap) (driver : σ) (schedule : List (Chair × Move)) :
    let e := (duet map driver).play map schedule
    ∃ p, e.AccountsFor .player p (.ofLog .player .idle e.log) := by
  rw [duet_eq_withPlayer]
  exact exists_accountsFor_play map (.start driver) _ .player schedule

/-- From the beginning of a line on, the session handles it. -/
theorem exists_handles {text : String}
    (hlog : ((duet map driver).play map schedule).log =
      past ++ .began .session (.line text) :: since) :
    ∃ (s : Session) (e : Ensemble Chair σ) (after : List (Chair × Move)), s.map = map ∧
      (duet map driver).play map schedule = e.play map after ∧
      e.log = past ++ [.began .session (.line text)] ∧
      ∀ more, (e.play map more).Handles s text (past ++ [.began .session (.line text)]) := by
  obtain ⟨before, who, m, after, hschedule, hbefore, hturn⟩ := exists_turn_of_log hlog
  have hmapped : ((duet map driver).play map before).IsMapped map :=
    play_induction (P := fun e => e.IsMapped map) (fun _ _ _ _ h hstep => hstep.isMapped h)
      (isMapped_sequencer map driver Chair.role) before
  have hplay : (duet map driver).play map schedule =
      (((duet map driver).play map before).turn map who m).play map after := by
    rw [hschedule, play_append, play_cons]
  have haccount : ∃ p a, (((duet map driver).play map before).turn map who m).AccountsFor
      .player p a := by
    obtain ⟨p, h⟩ := exists_accountsFor_duet map driver (before ++ [(who, m)])
    rw [play_append, play_cons, play_nil] at h
    exact ⟨p, _, h⟩
  have hpast : ((duet map driver).play map before).log = past := hbefore
  generalize (duet map driver).play map before = e₁ at hmapped hplay haccount hpast hturn
  generalize e₁.turn map who m = e at hplay haccount hturn
  have he : e.log = past ++ [.began .session (.line text)] := by rw [hturn.log_eq, hpast]
  cases hturn with
  | began order activity horder =>
    cases hparty : e₁.parties .session with
    | session s =>
      rw [hparty] at horder
      cases horder
      have hs : s.map = map := by
        have hsession := hmapped.parties .session
        rw [hparty] at hsession
        exact hsession
      refine ⟨s, _, after, hs, hplay, he, ?_⟩
      intro more
      refine play_induction (P := fun e => e.Handles s text _)
        (fun _ _ _ _ h hstep => hstep.handles h) ?_ more
      refine ⟨haccount, [], by rw [List.append_nil, he], .inr ⟨?_, ?_⟩⟩
      · intro _ hentry
        cases hentry
      · rw [parties_record_self]
        exact .begun
    | player | installer | closer | newcomer | busy =>
      rw [hparty] at horder
      cases horder

/-- When a session has handled a line and accepted it, its pins have been switched off and its
    sequence published. -/
theorem Handles.accepted {e : Ensemble Chair σ} {text : String} {base x : List (Entry Chair)}
    {session s' : Session} {e' : Ensemble Chair σ} {who : Chair}
    (h : e.Handles session text base) (hlog : e.log = base ++ x)
    (hlatest : ∀ entry ∈ x, entry.isLine = false)
    (hturn : Happens map e who (.ended .session (.handled (.ok ()) s')) e') :
    ∃ compiled, compile text session.map session.led = .ok compiled ∧
      sweep session.map ∈ x ∧ publication compiled.sequence ∈ x := by
  obtain ⟨since, hsince, hhandling⟩ := h.log
  have hsame : since = x := List.append_cancel_left (hsince.symm.trans hlog)
  subst hsame
  cases hturn with
  | ended outcome hbusy =>
    rcases hhandling with ⟨line, hmem, hline⟩ | ⟨_, hhandling⟩
    · rw [hlatest line hmem] at hline
      cases hline
    · rw [hbusy] at hhandling
      rcases hhandling.done with ⟨error, s', heq⟩ | ⟨_, haccepted⟩
      · cases heq
      · exact haccepted

end Ensemble

end LedSequencer
