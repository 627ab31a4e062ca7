import LedSequencer.Playback.Session
import Mathlib.Data.List.Forall2

/-! # Lines of an input

  An input is cut after each line feed. What it is to cut a list is said apart from the
  reading (`IsCut`), and the reading cuts its input in this way and no other. A text is
  cut where its characters are: no byte of another character is a line feed.
-/

namespace LedSequencer

/-! ### Pieces -/

/-- A list is cut after each separator. Only the last piece may lack one, and no piece is empty. -/
inductive IsCut {α : Type} (sep : α) : List α → List (List α) → Prop where
  | nothing : IsCut sep [] []
  | unended (tail : List α) (hne : tail ≠ []) (hsep : sep ∉ tail) : IsCut sep tail [tail]
  | ended (body : List α) (hsep : sep ∉ body) {rest : List α} {pieces : List (List α)}
      (hrest : IsCut sep rest pieces) : IsCut sep (body ++ sep :: rest) ((body ++ [sep]) :: pieces)

section

variable {α β : Type} {sep : α}

theorem IsCut.ne_nil {l : List α} {pieces : List (List α)} (h : IsCut sep l pieces)
    {piece : List α} (hpiece : piece ∈ pieces) : piece ≠ [] := by
  induction h with
  | nothing => cases hpiece
  | unended tail hne hsep => rwa [List.mem_singleton.1 hpiece]
  | ended body hsep hrest ih =>
    rcases List.mem_cons.1 hpiece with rfl | hpiece
    · exact List.append_ne_nil_of_right_ne_nil body (List.cons_ne_nil sep [])
    · exact ih hpiece

/-- A piece has its separator at the end, if it has one. -/
theorem IsCut.exists_body {l : List α} {pieces : List (List α)} (h : IsCut sep l pieces)
    {piece : List α} (hpiece : piece ∈ pieces) :
    ∃ body, sep ∉ body ∧ (piece = body ∨ piece = body ++ [sep]) := by
  induction h with
  | nothing => cases hpiece
  | unended tail hne hsep => exact ⟨tail, hsep, .inl (List.mem_singleton.1 hpiece)⟩
  | ended body hsep hrest ih =>
    rcases List.mem_cons.1 hpiece with rfl | hpiece
    · exact ⟨body, hsep, .inr rfl⟩
    · exact ih hpiece

/-- Every list can be cut. -/
theorem exists_isCut [DecidableEq α] (sep : α) (l : List α) : ∃ pieces, IsCut sep l pieces := by
  induction l with
  | nil => exact ⟨[], .nothing⟩
  | cons a rest ih =>
    obtain ⟨pieces, hpieces⟩ := ih
    by_cases ha : a = sep
    · subst ha
      exact ⟨[a] :: pieces, .ended [] List.not_mem_nil hpieces⟩
    · cases hpieces with
      | nothing => exact ⟨[[a]], .unended [a] (List.cons_ne_nil a []) (by simpa using Ne.symm ha)⟩
      | unended _ hne hsep =>
        refine ⟨[a :: rest], .unended (a :: rest) (List.cons_ne_nil a rest) ?_⟩
        exact List.not_mem_cons_of_ne_of_not_mem (Ne.symm ha) hsep
      | ended body hsep hrest =>
        refine ⟨_, .ended (a :: body) ?_ hrest⟩
        exact List.not_mem_cons_of_ne_of_not_mem (Ne.symm ha) hsep

/-- What is written for each element can be cut where the elements are, when the separator ends what
    is written for the separator and comes nowhere else. -/
theorem IsCut.flatMap {sep' : β} {f : α → List β} (hne : ∀ a, f a ≠ [])
    (hother : ∀ a, a ≠ sep → sep' ∉ f a) {before : List β} (hbefore : sep' ∉ before)
    (hsep : f sep = before ++ [sep']) {l : List α} {pieces : List (List α)}
    (h : IsCut sep l pieces) :
    IsCut sep' (l.flatMap f) (pieces.map fun piece => piece.flatMap f) := by
  have hbody {body : List α} (h : sep ∉ body) : sep' ∉ body.flatMap f := by
    rw [List.mem_flatMap]
    rintro ⟨a, ha, hmem⟩
    exact hother a (fun heq => h (heq ▸ ha)) hmem
  induction h with
  | nothing => exact .nothing
  | unended tail htail hfree =>
    refine .unended _ (fun hnil => ?_) (hbody hfree)
    obtain ⟨a, rest, rfl⟩ := List.exists_cons_of_ne_nil htail
    exact hne a (List.append_eq_nil_iff.1 hnil).1
  | @ended body hfree rest pieces hrest ih =>
    have hfront : sep' ∉ body.flatMap f ++ before := by
      simp [hbody hfree, hbefore]
    have hcut := IsCut.ended _ hfront ih
    have hl : (body ++ sep :: rest).flatMap f =
        (body.flatMap f ++ before) ++ sep' :: rest.flatMap f := by
      rw [List.flatMap_append, List.flatMap_cons, hsep]
      simp
    have hpiece : (body ++ [sep]).flatMap f = (body.flatMap f ++ before) ++ [sep'] := by
      rw [List.flatMap_append, List.flatMap_singleton, hsep, List.append_assoc]
    rw [hl, List.map_cons, hpiece]
    exact hcut

end

/-- An input is cut after each line feed in just one way. -/
theorem IsCut.eq_chunks {bytes : List UInt8} {pieces : List (List UInt8)}
    (h : IsCut lineFeed bytes pieces) : pieces = chunks bytes := by
  induction h with
  | nothing => rfl
  | unended tail hne hsep =>
    induction tail with
    | nil => exact absurd rfl hne
    | cons b tail ih =>
      have hb : b ≠ lineFeed := fun heq => hsep (heq ▸ List.mem_cons_self)
      rw [chunks, if_neg hb]
      cases tail with
      | nil => rfl
      | cons b' tail =>
        rw [← ih (List.cons_ne_nil b' tail) fun hmem => hsep (List.mem_cons_of_mem b hmem)]
  | ended body hsep hrest ih =>
    -- the reading puts bytes in front of the first piece until it comes to the separator
    clear hrest
    induction body with
    | nil =>
      show [lineFeed] :: _ = chunks (lineFeed :: _)
      rw [chunks, if_pos rfl, ih]
    | cons b body ihbody =>
      have hb : b ≠ lineFeed := fun heq => hsep (heq ▸ List.mem_cons_self)
      show (b :: (body ++ [lineFeed])) :: _ = chunks (b :: (body ++ lineFeed :: _))
      rw [chunks, if_neg hb, ← ihbody fun hmem => hsep (List.mem_cons_of_mem b hmem)]

/-- The reading cuts its input after each line feed. -/
theorem isCut_chunks (bytes : List UInt8) : IsCut lineFeed bytes (chunks bytes) := by
  obtain ⟨pieces, hpieces⟩ := exists_isCut lineFeed bytes
  rw [← hpieces.eq_chunks]
  exact hpieces

/-! ### Texts -/

/-- The bytes of a text. -/
def bytesOfText (text : String) : List UInt8 := text.toUTF8.data.toList

/-- The characters that a character is written with, when each line feed gets a carriage return in
    front of it. -/
def returnBefore (c : Char) : List Char := if c = '\n' then ['\r', '\n'] else [c]

/-- A text with a carriage return in front of each line feed. -/
def withReturns (text : String) : String := .ofList (text.toList.flatMap returnBefore)

theorem bytesOfText_eq (text : String) :
    bytesOfText text = text.toList.flatMap String.utf8EncodeChar := by
  rw [bytesOfText, String.toUTF8_eq_toByteArray, ← String.utf8Encode_toList]
  exact List.toList_data_toByteArray

/-- The bytes of a text are read back. -/
theorem textOfBytes?_flatMap (cs : List Char) :
    textOfBytes? (cs.flatMap String.utf8EncodeChar) = some (.ofList cs) :=
  dif_pos (ByteArray.isValidUTF8_utf8Encode (l := cs))

/-- Bytes that are the empty text are none. -/
theorem textOfBytes?_ne_empty {bytes : List UInt8} (hbytes : bytes ≠ []) :
    textOfBytes? bytes ≠ some "" := by
  intro h
  unfold textOfBytes? String.fromUTF8? at h
  split at h
  · have hsame := congrArg String.toByteArray (Option.some.inj h)
    exact hbytes (ByteArray.toByteArray_eq_empty.1 hsame)
  · cases h

/-- The byte of a line feed is in no other character. -/
theorem lineFeed_notMem_utf8EncodeChar {c : Char} (hc : c ≠ '\n') :
    lineFeed ∉ String.utf8EncodeChar c := by
  have hne : c.val.toNat ≠ 10 := by
    intro h
    exact hc (Char.ext (UInt32.toNat_inj.1 h))
  -- all bytes of a longer character have their highest bit set
  have hbyte {n : Nat} (hn : n < 256) (h : lineFeed = UInt8.ofNat n) : n = 10 := by
    have htoNat := congrArg UInt8.toNat h
    rw [UInt8.toNat_ofNat_of_lt' hn] at htoNat
    exact htoNat.symm
  intro hmem
  simp only [String.utf8EncodeChar] at hmem
  split at hmem
  · exact hne (hbyte (by omega) (List.mem_singleton.1 hmem))
  split at hmem
  · simp only [List.mem_cons, List.not_mem_nil, or_false] at hmem
    rcases hmem with h | h <;> exact absurd (hbyte (by omega) h) (by omega)
  split at hmem
  · simp only [List.mem_cons, List.not_mem_nil, or_false] at hmem
    rcases hmem with h | h | h <;> exact absurd (hbyte (by omega) h) (by omega)
  · simp only [List.mem_cons, List.not_mem_nil, or_false] at hmem
    rcases hmem with h | h | h | h <;> exact absurd (hbyte (by omega) h) (by omega)

/-- A text is read piece by piece of its characters. -/
theorem ofBytes_flatMap {cs : List Char} {pieces : List (List Char)} (h : IsCut '\n' cs pieces) :
    Reading.ofBytes (cs.flatMap String.utf8EncodeChar) =
      (pieces.map String.ofList).map Reading.text := by
  have hcut : IsCut lineFeed (cs.flatMap String.utf8EncodeChar)
      (pieces.map fun piece => piece.flatMap String.utf8EncodeChar) :=
    h.flatMap (fun _ => String.utf8EncodeChar_ne_nil) (fun _ => lineFeed_notMem_utf8EncodeChar)
      List.not_mem_nil rfl
  rw [Reading.ofBytes, ← hcut.eq_chunks, List.map_map, List.map_map]
  apply List.map_congr_left
  intro piece _
  rw [Function.comp_apply, Reading.ofChunk, textOfBytes?_flatMap]
  rfl

/-- Carriage returns in front of line feeds leave the cuts where they are. -/
theorem IsCut.withReturns {cs : List Char} {pieces : List (List Char)} (h : IsCut '\n' cs pieces) :
    IsCut '\n' (cs.flatMap returnBefore) (pieces.map fun piece => piece.flatMap returnBefore) := by
  have hne (c : Char) : returnBefore c ≠ [] := by
    unfold returnBefore
    split <;> exact List.cons_ne_nil _ _
  have hother (c : Char) (hc : c ≠ '\n') : '\n' ∉ returnBefore c := by
    rw [returnBefore, if_neg hc, List.mem_singleton]
    exact hc.symm
  have hreturn : '\n' ∉ ['\r'] := by decide
  exact h.flatMap hne hother hreturn rfl

/-- A carriage return before the line feed is taken off with it. -/
theorem trimLineEnd_returnBefore {cs piece : List Char} {pieces : List (List Char)}
    (h : IsCut '\n' cs pieces) (hpiece : piece ∈ pieces) :
    trimLineEnd (.ofList (piece.flatMap returnBefore)) = trimLineEnd (.ofList piece) := by
  obtain ⟨body, hbody, hends⟩ := h.exists_body hpiece
  have hsame : body.flatMap returnBefore = body := by
    have hkept : ∀ c ∈ body, returnBefore c = [c] := by
      intro c hc
      have hne : c ≠ '\n' := fun heq => hbody (heq ▸ hc)
      exact if_neg hne
    rw [List.flatMap_congr hkept, List.flatMap_singleton']
  rcases hends with rfl | rfl
  · rw [hsame]
  · rw [List.flatMap_append, hsame]
    simp [trimLineEnd, returnBefore]

end LedSequencer
