import LedSequencer.Proofs.Effects

/-! # Sessions over readings

  What a session reads may end at once, fail for a moment or for good, and leave behind
  text that no line came of. However it goes, a session does no more than to handle
  lines in order and to shut down once, and it shuts down in the end
  (`run_ends_shut`).

  * **Readings**: what they hold, up to the one that ends the session.
  * **Lines**: what handling several lines does.
  * **The loop**: its buffer for lines, and what it leaves unread.
-/

namespace LedSequencer

/-! ### Readings -/

namespace Reading

/-- What a reading appends to the buffer that it is read into. -/
def appended : Reading → String
  | .text line => line
  | .failed before _ => before

/-- Whether a session goes no further than this reading: the input has ended, or it has failed for
    good. -/
def isLast : Reading → Bool
  | .text line => line = ""
  | .failed _ error => error.kind ≠ .interrupted ∧ error.kind ≠ .invalidData

/-- The line of a reading that went well, without its line end. -/
def line? : Reading → Option String
  | .text line => some (trimLineEnd line)
  | .failed _ _ => none

/-- The lines among readings, up to the reading that ends the session. -/
def lines (readings : List Reading) : List String :=
  (readings.takeWhile fun reading => !reading.isLast).filterMap line?

/-- What the session answers: the fault, if a fault ends it. -/
def result (readings : List Reading) : Except ReadError Unit :=
  match readings.find? isLast with
  | some (.failed _ error) => .error error
  | _ => .ok ()

/-- The readings after the one that ends the session. -/
def unread (readings : List Reading) : List Reading :=
  (readings.dropWhile fun reading => !reading.isLast).tail

end Reading

/-! ### Lines -/

namespace Session

/-- Handles lines in order, whatever comes of each. -/
def handleAll : Session → List String → Activity Session
  | s, [] => pure s
  | s, line :: rest => do
    let handled ← s.handleLine line
    handled.2.handleAll rest

/-- The session after lines. -/
def afterLines (s : Session) (lines : List String) : Session :=
  lines.foldl (fun s line => (s.afterLine line).2) s

/-- What a session does for lines. -/
def effectsOfLines : Session → List String → List Action
  | _, [] => []
  | s, line :: rest => s.effects line ++ (s.afterLine line).2.effectsOfLines rest

theorem map_afterLines (s : Session) (lines : List String) : (s.afterLines lines).map = s.map := by
  induction lines generalizing s with
  | nil => rfl
  | cons line rest ih => exact (ih (s.afterLine line).2).trans (s.map_afterLine line)

theorem hasEffects_handleAll (s : Session) (lines : List String) :
    (s.handleAll lines).HasEffects (s.effectsOfLines lines) (s.afterLines lines) := by
  induction lines generalizing s with
  | nil => exact .done
  | cons line rest ih => exact (s.hasEffects_handleLine line).bind (ih (s.afterLine line).2)

theorem isPlain_of_mem_effectsOfLines {s : Session} {lines : List String} {a : Action}
    (ha : a ∈ s.effectsOfLines lines) : a.isPlain = true := by
  induction lines generalizing s with
  | nil => cases ha
  | cons line rest ih =>
    rcases List.mem_append.1 ha with hfirst | hrest
    · exact isPlain_of_mem_effects hfirst
    · exact ih hrest

/-- All pins are switched off once for each line. -/
theorem calls_effectsOfLines (s : Session) (lines : List String) :
    (s.effectsOfLines lines).flatMap (Action.calls false) =
      lines.flatMap fun _ => s.map.pins.map fun pin => .set pin .low := by
  induction lines generalizing s with
  | nil => rfl
  | cons line rest ih =>
    rw [effectsOfLines, List.flatMap_append, calls_effects, ih, map_afterLine]
    rfl

/-- Handling a line closes nothing. -/
theorem follows_handleLine_avoiding (s : Session) (line : String) :
    (s.handleLine line).Follows (.avoiding Action.isClose) fun handled =>
      handled.2.map = s.map := by
  have hlenient : (Conduct.avoiding Action.isClose).Lenient :=
    Conduct.lenient_avoiding fun _ => Action.isClose_of_isPassing
  exact follows_handleLine hlenient rfl fun _ _ => rfl

end Session

/-! ### The loop -/

namespace Reading

/-- Empties a buffer for lines. -/
def emptied (_buffer : String) : String := ""

/-- A reading with the buffer that it was read into. -/
def through (buffer : String) : Reading → Reading
  | .text _ => .text buffer
  | .failed _ error => .failed buffer error

/-- Nothing is left in the buffer of what was read before. -/
theorem through_emptied (reading : Reading) (buffer : String) :
    reading.through (emptied buffer ++ reading.appended) = reading := by
  have hfilled : emptied buffer ++ reading.appended = reading.appended := String.empty_append
  rw [hfilled]
  cases reading <;> rfl

end Reading

namespace Session

/-- Takes in readings through one buffer, until the session ends. The buffer is emptied before each
    reading, and every reading appends to it, also one that fails. Answers, as well, with the
    readings that are left. -/
def readThrough : Session → String → List Reading →
    Activity ((Session × Except ReadError Unit) × List Reading)
  | s, _, [] => do
    if ← Activity.isClosing then
      let ended ← s.leave
      pure (ended, [])
    else
      let ended ← s.endInput
      pure (ended, [])
  | s, buffer, reading :: rest => do
    if ← Activity.isClosing then
      let ended ← s.leave
      pure (ended, reading :: rest)
    else
      let filled := Reading.emptied buffer ++ reading.appended
      match ← s.receive (reading.through filled) with
      | (s, none) => s.readThrough filled rest
      | (s, some result) => pure ((s, result), rest)

/-- Of an activity that answers with something left over, the answer alone is kept. -/
theorem bind_left_over {α β : Type} (d : Activity α) (left : β) :
    ((d >>= fun a => pure (a, left)) >>= fun answer => pure answer.1) = d := by
  rw [Dialogue.bind_assoc]
  exact d.bind_pure

/-- The buffer and the account of what is left change nothing about the session. -/
theorem readThrough_eq_run (s : Session) (buffer : String) (readings : List Reading) :
    (s.readThrough buffer readings >>= fun ended => pure ended.1) = s.run readings := by
  induction readings generalizing s buffer with
  | nil =>
    rw [readThrough, run, Dialogue.bind_assoc]
    congr 1
    funext isClosing
    cases isClosing with
    | true => exact bind_left_over s.leave []
    | false => exact bind_left_over s.endInput []
  | cons reading rest ih =>
    rw [readThrough, run, Dialogue.bind_assoc]
    congr 1
    funext isClosing
    cases isClosing with
    | true => exact bind_left_over s.leave (reading :: rest)
    | false =>
      show (s.receive _ >>= _) >>= _ = s.receive reading >>= _
      rw [reading.through_emptied, Dialogue.bind_assoc]
      congr 1
      funext received
      obtain ⟨s, ending⟩ := received
      cases ending with
      | none => exact ih s _
      | some result => rfl

/-- A session that sees that the sequencer closes reads nothing. -/
theorem deeds_readThrough_closing (s : Session) (buffer : String) (readings : List Reading) :
    Activity.deeds true (s.readThrough buffer readings) =
      Activity.deeds true (do
        let _ ← Activity.shutDown s.map.pins
        pure ((s, .ok ()), readings)) := by
  have hleave : (s.leave >>= fun ended => pure (ended, readings)) = (do
      let _ ← Activity.shutDown s.map.pins
      pure ((s, .ok ()), readings)) := Dialogue.bind_assoc _ _ _
  rw [← hleave]
  cases readings <;> rfl

section

variable {α : Type} (s : Session) (goOn : Session × Option (Except ReadError Unit) → Activity α)

/-- A reading that ends the session brings the shutdown about. -/
theorem deeds_receive_of_isLast {reading : Reading} (h : reading.isLast = true) :
    Activity.deeds false (s.receive reading >>= goOn) =
      Activity.deeds false (do
        let _ ← Activity.shutDown s.map.pins
        goOn (s, some (Reading.result [reading]))) := by
  have hresult : Reading.result [reading] =
      match reading with
      | .failed _ error => .error error
      | .text _ => .ok () := by
    rw [Reading.result, List.find?_cons_of_pos h]
    cases reading <;> rfl
  cases reading with
  | text line =>
    obtain rfl : line = "" := of_decide_eq_true h
    rw [hresult]
    show Activity.deeds false
      ((s.leave >>= fun ended => pure (ended.1, some ended.2)) >>= goOn) = _
    rw [leave, Dialogue.bind_assoc, Dialogue.bind_assoc]
    rfl
  | failed before error =>
    rw [hresult]
    obtain ⟨kind, message⟩ := error
    cases kind with
    | interrupted | invalidData => cases h
    | unexpectedEnd | brokenPipe | other =>
      show Activity.deeds false ((Activity.shutDown s.map.pins >>= fun _ => pure _) >>= goOn) = _
      rw [Dialogue.bind_assoc]
      rfl

/-- A line that is read is handled; whether it is rejected shows in a report only. -/
theorem deeds_receive_of_line {reading : Reading} (h : reading.isLast = false) {line : String}
    (hline : reading.line? = some line) :
    Activity.deeds false (s.receive reading >>= goOn) =
      Activity.deeds false (s.handleLine line >>= fun handled => goOn (handled.2, none)) := by
  cases reading with
  | failed before error => cases hline
  | text text =>
    obtain rfl : trimLineEnd text = line := Option.some.inj hline
    have hne : text ≠ "" := of_decide_eq_false h
    have hreceive : s.receive (.text text) =
        s.takeLine (trimLineEnd text) >>= fun s => pure (s, none) := if_neg hne
    have hopen := s.follows_handleLine_avoiding (trimLineEnd text)
    rw [hreceive, takeLine, Dialogue.bind_assoc, Dialogue.bind_assoc, Activity.deeds_bind hopen,
      Activity.deeds_bind hopen]
    congr 1
    funext handled
    obtain ⟨result, s⟩ := handled
    cases result <;> rfl

/-- A reading that fails for a moment is passed over. -/
theorem deeds_receive_of_skipped {reading : Reading} (h : reading.isLast = false)
    (hline : reading.line? = none) :
    Activity.deeds false (s.receive reading >>= goOn) =
      Activity.deeds false (goOn (s, none)) := by
  cases reading with
  | text text => cases hline
  | failed before error =>
    obtain ⟨kind, message⟩ := error
    cases kind with
    | interrupted | invalidData => rfl
    | unexpectedEnd | brokenPipe | other => cases h

end

/-- While nobody else closes, a session handles the lines among its readings and shuts down. -/
theorem deeds_readThrough (s : Session) (buffer : String) (readings : List Reading) :
    Activity.deeds false (s.readThrough buffer readings) =
      Activity.deeds false (do
        let s ← s.handleAll (Reading.lines readings)
        let _ ← Activity.shutDown s.map.pins
        pure ((s, Reading.result readings), Reading.unread readings)) := by
  induction readings generalizing s buffer with
  | nil =>
    -- the end of the input is reported, and then the session leaves
    have hleave : (s.leave >>= fun ended => pure (ended, [])) = (do
        let _ ← Activity.shutDown s.map.pins
        pure ((s, .ok ()), ([] : List Reading))) := Dialogue.bind_assoc _ _ _
    show Activity.deeds false (s.leave >>= fun ended => pure (ended, [])) = _
    rw [hleave]
    rfl
  | cons reading rest ih =>
    show Activity.deeds false (s.receive _ >>= _) = _
    rw [reading.through_emptied]
    cases hlast : reading.isLast with
    | true =>
      rw [s.deeds_receive_of_isLast _ hlast]
      have hlines : Reading.lines (reading :: rest) = [] := by simp [Reading.lines, hlast]
      have hresult : Reading.result (reading :: rest) = Reading.result [reading] := by
        simp [Reading.result, hlast]
      have hunread : Reading.unread (reading :: rest) = rest := by simp [Reading.unread, hlast]
      rw [hlines, hresult, hunread]
      rfl
    | false =>
      have hresult : Reading.result (reading :: rest) = Reading.result rest := by
        simp [Reading.result, hlast]
      have hunread : Reading.unread (reading :: rest) = Reading.unread rest := by
        simp [Reading.unread, hlast]
      rw [hresult, hunread]
      cases hline : reading.line? with
      | none =>
        have hlines : Reading.lines (reading :: rest) = Reading.lines rest := by
          simp [Reading.lines, hlast, hline]
        rw [s.deeds_receive_of_skipped _ hlast hline, hlines]
        exact ih s _
      | some line =>
        have hlines : Reading.lines (reading :: rest) = line :: Reading.lines rest := by
          simp [Reading.lines, hlast, hline]
        have hopen := s.follows_handleLine_avoiding line
        rw [s.deeds_receive_of_line _ hlast hline, hlines, handleAll, Dialogue.bind_assoc,
          Activity.deeds_bind hopen, Activity.deeds_bind hopen]
        congr 1
        funext handled
        exact ih handled.2 _

/-- What is left unread apart, this is all that a session does while nobody else closes. -/
theorem deeds_run (s : Session) (readings : List Reading) :
    Activity.deeds false (s.run readings) =
      Activity.deeds false (do
        let s ← s.handleAll (Reading.lines readings)
        let _ ← Activity.shutDown s.map.pins
        pure (s, Reading.result readings)) := by
  rw [← s.readThrough_eq_run "" readings, Activity.deeds_bind_pure, deeds_readThrough,
    ← Activity.deeds_bind_pure, Dialogue.bind_assoc]
  simp only [Dialogue.bind_assoc]
  rfl

/-- A session that sees that the sequencer closes only shuts down. -/
theorem deeds_run_closing (s : Session) (readings : List Reading) :
    Activity.deeds true (s.run readings) =
      Activity.deeds true (do
        let _ ← Activity.shutDown s.map.pins
        pure (s, .ok ())) := by
  rw [← s.readThrough_eq_run "" readings, Activity.deeds_bind_pure, deeds_readThrough_closing,
    ← Activity.deeds_bind_pure, Dialogue.bind_assoc]
  rfl

end Session

namespace World

variable {σ : Type} [PinDriver σ]

theorem passed_handleAll (s : Session) (lines : List String) (w : World σ) :
    (w.run (s.handleAll lines)).1 = s.afterLines lines ∧
      Passed w (w.run (s.handleAll lines)).2 (s.effectsOfLines lines) :=
  passed_run (s.hasEffects_handleAll lines) (fun _ => Session.isPlain_of_mem_effectsOfLines) w

/-- After lines and a shutdown the sequencer is closed and sealed, and the pins were switched off
    once for each line and once for the seal, unless the outputs had been sealed before. -/
theorem run_handleAll_shutDown (s : Session) (lines : List String) (w : World σ) :
    let handled := w.run (s.handleAll lines)
    let shut := (handled.2.run (Activity.shutDown handled.1.map.pins)).2
    let sweep := s.map.pins.map fun pin => Call.set pin .low
    shut.closing = true ∧ shut.isSealed = true ∧
      shut.calls.map Prod.fst = w.calls.map Prod.fst ++
        if w.isSealed then [] else (lines.flatMap fun _ => sweep) ++ sweep := by
  intro handled shut sweep
  obtain ⟨hsession, hpassed⟩ := passed_handleAll s lines w
  obtain ⟨_, hclosing, hsealed, _, _⟩ := run_shutDown handled.1.map.pins handled.2
  refine ⟨hclosing, hsealed, ?_⟩
  have hmap : handled.1.map = s.map := by
    rw [hsession]
    exact s.map_afterLines lines
  have hlines : w.letThrough (s.effectsOfLines lines) =
      if w.isSealed then [] else lines.flatMap fun _ => sweep := by
    rw [letThrough_eq, s.calls_effectsOfLines]
  have hseal : handled.2.letThrough [.bank (.seal handled.1.map.pins)] =
      if w.isSealed then [] else sweep := by
    rw [letThrough_eq, hpassed.isSealed, hmap, List.flatMap_singleton]
    rfl
  have hcalls := (hpassed.called.trans (called_shutDown handled.1.map.pins handled.2)).map_fst
  rw [hlines, hseal] at hcalls
  rw [hcalls]
  cases w.isSealed <;> rfl

end World

namespace Session

/-- **A session ends with a shutdown.** It takes in any readings, through one buffer for lines that
    it uses again and again. When it finds that the sequencer closes, it reads nothing, handles no
    line and answers that all is well. Otherwise, while nobody else closes, it handles the lines of
    the readings that went well, in order and each without its line end, up to the first reading
    that ends the input or fails for good; it answers with that fault, if it was one, and reads no
    further. No line comes of what failing readings leave in the buffer. Whatever it answers,
    whatever the driver does and wherever it began, the sequencer is closed and the outputs are
    sealed in the end, and for the seal all pins of its map are switched off once if the outputs
    were open, and not at all if they were sealed before. -/
theorem run_ends_shut (s : Session) (readings : List Reading) :
    (∀ buffer,
      (s.readThrough buffer readings >>= fun ended => pure ended.1) = s.run readings ∧
      Activity.deeds true (s.readThrough buffer readings) =
        Activity.deeds true (do
          let _ ← Activity.shutDown s.map.pins
          pure ((s, .ok ()), readings)) ∧
      Activity.deeds false (s.readThrough buffer readings) =
        Activity.deeds false (do
          let s ← s.handleAll (Reading.lines readings)
          let _ ← Activity.shutDown s.map.pins
          pure ((s, Reading.result readings), Reading.unread readings))) ∧
    ∀ {σ : Type} [PinDriver σ] (w : World σ),
      let ran := w.run (s.run readings)
      let lines := if w.closing then [] else Reading.lines readings
      let sweep := s.map.pins.map fun pin => Call.set pin .low
      ran.1 = (s.afterLines lines, if w.closing then .ok () else Reading.result readings) ∧
      ran.2.closing = true ∧ ran.2.isSealed = true ∧
      ran.2.calls.map Prod.fst = w.calls.map Prod.fst ++
        if w.isSealed then [] else (lines.flatMap fun _ => sweep) ++ sweep := by
  refine ⟨fun buffer => ⟨s.readThrough_eq_run buffer readings,
    s.deeds_readThrough_closing buffer readings, s.deeds_readThrough buffer readings⟩, ?_⟩
  intro σ _ w ran lines sweep
  -- both ways the session does what handling these lines and a shutdown do
  have hdeeds : Activity.deeds w.closing (s.run readings) =
      Activity.deeds w.closing (do
        let s ← s.handleAll lines
        let _ ← Activity.shutDown s.map.pins
        pure (s, if w.closing then .ok () else Reading.result readings)) := by
    show _ = Activity.deeds w.closing (s.handleAll (if w.closing then [] else _) >>= _)
    cases w.closing with
    | true => exact s.deeds_run_closing readings
    | false => exact s.deeds_run readings
  obtain ⟨hanswer, hagrees⟩ := World.agrees_of_deeds hdeeds
  obtain ⟨hclosing, hsealed, hcalls⟩ := w.run_handleAll_shutDown s lines
  simp only [World.run, Dialogue.run_bind] at hanswer hagrees
  refine ⟨?_, hagrees.closing.trans hclosing, hagrees.isSealed.trans hsealed, ?_⟩
  · exact hanswer.trans (Prod.ext (w.passed_handleAll s lines).1 rfl)
  · exact (congrArg (List.map Prod.fst) hagrees.calls).trans hcalls

/-- The rest of a line whose reading was interrupted is a line of its own. -/
example : Reading.lines [.failed "R 1s" { kind := .interrupted, message := "" }, .text " r\r\n",
    .failed "" { kind := .brokenPipe, message := "" }, .text "R"] = [" r"] := by decide +kernel

end Session

end LedSequencer
