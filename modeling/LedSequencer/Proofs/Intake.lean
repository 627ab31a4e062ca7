import LedSequencer.Proofs.Lines
import LedSequencer.Proofs.Readings
import LedSequencer.Proofs.Shutdown

/-! # Sessions over an input

  A session that reads bytes does no more than to handle the lines among them in order
  and to shut down once. The input is cut after each line feed; a piece that is no text
  is left out, and from every other piece the line end is taken. Texts that differ in
  their line ends are taken in alike (`run_handles_lines`).
-/

namespace LedSequencer

/-- The lines among the pieces of an input: a piece that is no text is left out, and from every
    other one the line end is taken. -/
def linesOf (pieces : List (List UInt8)) : List String :=
  pieces.filterMap fun piece => (textOfBytes? piece).map trimLineEnd

/-- The input does not end at a piece that holds something, and does not fail there for good. -/
theorem isLast_ofChunk {piece : List UInt8} (h : piece ≠ []) :
    (Reading.ofChunk piece).isLast = false := by
  unfold Reading.ofChunk
  cases htext : textOfBytes? piece with
  | none => rfl
  | some text =>
    have hne : text ≠ "" := by
      rintro rfl
      exact textOfBytes?_ne_empty h htext
    exact decide_eq_false hne

section

variable {pieces : List (List UInt8)} (hpieces : [] ∉ pieces)
include hpieces

theorem forall_isLast_ofChunk :
    ∀ reading ∈ pieces.map Reading.ofChunk, reading.isLast = false := by
  intro reading hreading
  obtain ⟨piece, hpiece, rfl⟩ := List.mem_map.1 hreading
  exact isLast_ofChunk fun hnil => hpieces (hnil ▸ hpiece)

theorem lines_ofChunk : Reading.lines (pieces.map Reading.ofChunk) = linesOf pieces := by
  have hall : (pieces.map Reading.ofChunk).takeWhile (fun reading => !reading.isLast) =
      pieces.map Reading.ofChunk := by
    apply List.takeWhile_eq_self_iff.2
    intro reading hreading
    rw [forall_isLast_ofChunk hpieces reading hreading]
    rfl
  rw [Reading.lines, hall, List.filterMap_map]
  apply List.filterMap_congr
  intro piece _
  rw [Function.comp_apply, Reading.ofChunk]
  cases textOfBytes? piece <;> rfl

theorem result_ofChunk : Reading.result (pieces.map Reading.ofChunk) = .ok () := by
  have hnone : (pieces.map Reading.ofChunk).find? Reading.isLast = none := by
    apply List.find?_eq_none.2
    intro reading hreading
    rw [forall_isLast_ofChunk hpieces reading hreading]
    exact Bool.false_ne_true
  rw [Reading.result, hnone]

end

namespace Session

/-- Handles the lines among the pieces of an input, and then shuts down. -/
def handlePieces (s : Session) (pieces : List (List UInt8)) : Activity Session := do
  let s ← s.handleAll (linesOf pieces)
  let _ ← Activity.shutDown s.map.pins
  pure s

/-- A session takes in a text by its line, unless it has seen that the sequencer closes. -/
theorem run_text_cons (s : Session) {text : String} (hne : text ≠ "") (rest : List Reading) :
    s.run (.text text :: rest) = Activity.isClosing >>= fun isClosing =>
      if isClosing then s.leave else s.takeLine (trimLineEnd text) >>= fun s => s.run rest := by
  rw [run]
  congr 1
  funext isClosing
  cases isClosing with
  | true => rfl
  | false =>
    have hreceive : s.receive (.text text) =
        s.takeLine (trimLineEnd text) >>= fun s => pure (s, none) := if_neg hne
    show s.receive (.text text) >>= _ = s.takeLine (trimLineEnd text) >>= _
    rw [hreceive, Dialogue.bind_assoc]
    rfl

/-- Taking in pieces does what handling their lines does. -/
theorem deeds_run_ofChunk (s : Session) {pieces : List (List UInt8)} (hpieces : [] ∉ pieces) :
    Activity.deeds false (s.run (pieces.map Reading.ofChunk)) =
      Activity.deeds false (s.handlePieces pieces >>= fun s => pure (s, .ok ())) := by
  rw [deeds_run, lines_ofChunk hpieces, result_ofChunk hpieces, handlePieces, Dialogue.bind_assoc]
  simp only [Dialogue.bind_assoc]
  rfl

/-- Texts are taken in alike when they differ at the ends of their lines only. -/
theorem run_eq_of_trimLineEnd (s : Session) {texts texts' : List String}
    (h : List.Forall₂ (fun text text' =>
      text ≠ "" ∧ text' ≠ "" ∧ trimLineEnd text = trimLineEnd text') texts texts') :
    s.run (texts.map Reading.text) = s.run (texts'.map Reading.text) := by
  induction h generalizing s with
  | nil => rfl
  | cons htexts _ ih =>
    obtain ⟨hne, hne', htrim⟩ := htexts
    rw [List.map_cons, List.map_cons, run_text_cons s hne, run_text_cons s hne', htrim]
    simp only [ih]

/-- Carriage returns before line feeds change nothing. -/
theorem run_withReturns (s : Session) (text : String) :
    s.run (Reading.ofBytes (bytesOfText (withReturns text))) =
      s.run (Reading.ofBytes (bytesOfText text)) := by
  obtain ⟨pieces, hpieces⟩ := exists_isCut '\n' text.toList
  rw [bytesOfText_eq, bytesOfText_eq, withReturns, String.toList_ofList,
    ofBytes_flatMap hpieces, ofBytes_flatMap hpieces.withReturns]
  apply run_eq_of_trimLineEnd
  rw [List.map_map, List.forall₂_map_left_iff, List.forall₂_map_right_iff, List.forall₂_same]
  intro piece hpiece
  have hne {cs : List Char} (hcs : cs ≠ []) : String.ofList cs ≠ "" := by
    intro h
    exact hcs (String.ofList_eq_empty_iff.1 h)
  refine ⟨hne ?_, hne (hpieces.ne_nil hpiece), trimLineEnd_returnBefore hpieces hpiece⟩
  exact hpieces.withReturns.ne_nil (List.mem_map_of_mem hpiece)

/-- **A session handles the lines of its input.** Whatever bytes it reads, a session that nobody
    else lets close does what handling the lines among the pieces and one shutdown do: no other
    action on the shared state, and none left out. So it ends well, and leaves behind what they
    leave, whether the outputs are sealed or not and whatever the driver answers. A text is taken
    in, action by action, like the text with a carriage return before each line feed. -/
theorem run_handles_lines (s : Session) :
    (∀ bytes : List UInt8, IsCut lineFeed bytes (chunks bytes) ∧
      Activity.deeds false (s.run (Reading.ofBytes bytes)) =
        Activity.deeds false (s.handlePieces (chunks bytes) >>= fun s => pure (s, .ok ())) ∧
      ∀ {σ : Type} [PinDriver σ] (w : World σ), w.closing = false →
        let ran := w.run (s.run (Reading.ofBytes bytes))
        let handled := w.run (s.handlePieces (chunks bytes))
        ran.1 = (handled.1, .ok ()) ∧ ran.2.Agrees handled.2) ∧
    ∀ text : String, s.run (Reading.ofBytes (bytesOfText (withReturns text))) =
      s.run (Reading.ofBytes (bytesOfText text)) := by
  refine ⟨fun bytes => ?_, s.run_withReturns⟩
  have hcut := isCut_chunks bytes
  have hdeeds := s.deeds_run_ofChunk fun hmem => hcut.ne_nil hmem rfl
  refine ⟨hcut, hdeeds, fun w hw => ?_⟩
  have hsame := World.agrees_of_deeds (w := w) (hw ▸ hdeeds)
  have hhandled : w.run (s.handlePieces (chunks bytes) >>= fun s =>
      (pure (s, .ok ()) : Activity (Session × Except ReadError Unit))) =
        (((w.run (s.handlePieces (chunks bytes))).1, .ok ()),
          (w.run (s.handlePieces (chunks bytes))).2) := Dialogue.run_bind _ _ _ _
  rw [hhandled] at hsame
  exact hsame

/-- A line with both line ends, a piece that is no text, a blank line and a line without an end. -/
def mixed : List UInt8 := [0x52, 0x0D, 0x0A, 0xFF, 0x0A, 0x0A, 0x72]

theorem run_handles_lines_mixed :
    let s := start Ensemble.single
    let w := World.start Hardware.nothing
    let ran := w.run (s.run (Reading.ofBytes mixed))
    let handled := w.run (s.handlePieces (chunks mixed))
    linesOf (chunks mixed) = ["R", "", "r"] ∧ w.closing = false ∧
      ran.1 = (handled.1, .ok ()) ∧ ran.2.Agrees handled.2 := by
  intro s w ran handled
  have hlines : linesOf (chunks mixed) = ["R", "", "r"] := by decide +kernel
  have hopen : w.closing = false := rfl
  obtain ⟨_, _, heffect⟩ := (run_handles_lines s).1 mixed
  exact ⟨hlines, hopen, heffect w hopen⟩

end Session

end LedSequencer
