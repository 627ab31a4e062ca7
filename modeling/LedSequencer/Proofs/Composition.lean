import LedSequencer.Proofs.Emission

/-! # Lines put together

  A line can be compiled piece by piece. Where blank characters stand between two pieces,
  the second one is compiled from the LED that the first one leaves, and only the bound on
  the length is shared (`compile_append_gap`). Within a word of letters it does not even
  matter where the pieces end.

  * **Words**: blanks separate, and nothing else does.
  * **Meaning**: words in a row mean what they mean one after the other.
  * **Words of letters**: each letter stands for itself.
  * **Pieces**: what comes of a line, from what comes of its pieces.
-/

namespace LedSequencer

/-! ### Words -/

theorem words_append_cons {c : Char} (hc : isBlank c = true) (before after : List Char) :
    words (before ++ c :: after) = words before ++ words after := by
  unfold words
  rw [List.splitOnP_append_cons before after hc, List.filter_append]

theorem words_nil : words [] = [] := by
  simp [words, List.splitOnP_nil]

/-- A blank at the front belongs to no word. -/
theorem words_cons {c : Char} (hc : isBlank c = true) (after : List Char) :
    words (c :: after) = words after := by
  have happend := words_append_cons hc [] after
  rw [words_nil] at happend
  exact happend

theorem words_gap_append {gap : List Char} (hgap : ∀ c ∈ gap, isBlank c = true)
    (after : List Char) : words (gap ++ after) = words after := by
  induction gap with
  | nil => rfl
  | cons c rest ih =>
    rw [List.cons_append, words_cons (hgap c List.mem_cons_self)]
    apply ih
    intro d hd
    exact hgap d (List.mem_cons_of_mem c hd)

/-- Blanks end a word, and begin none. -/
theorem words_append_gap {gap : List Char} (hne : gap ≠ [])
    (hgap : ∀ c ∈ gap, isBlank c = true) (before after : List Char) :
    words (before ++ gap ++ after) = words before ++ words after := by
  cases gap with
  | nil => exact absurd rfl hne
  | cons c rest =>
    rw [List.append_assoc, List.cons_append, words_append_cons (hgap c List.mem_cons_self)]
    congr 1
    apply words_gap_append
    intro d hd
    exact hgap d (List.mem_cons_of_mem c hd)

/-- A run of characters that are not blank is one word. -/
theorem words_of_not_isBlank {word : List Char} (hne : word ≠ [])
    (hword : ∀ c ∈ word, isBlank c = false) : words word = [word] := by
  have hsplit : word.splitOnP isBlank = [word] := by
    apply List.splitOnP_eq_singleton
    intro c hc
    exact hword c hc
  unfold words
  rw [hsplit]
  simp [hne]

/-- A line can be cut behind a blank. -/
theorem words_append_of_getLast? {before : List Char}
    (hbefore : ∀ c ∈ before.getLast?, isBlank c = true) (after : List Char) :
    words (before ++ after) = words before ++ words after := by
  cases hlast : before.getLast? with
  | none =>
    rw [List.getLast?_eq_none_iff.1 hlast, words_nil]
    rfl
  | some c =>
    obtain ⟨init, rfl⟩ := List.getLast?_eq_some_iff.1 hlast
    have hc := hbefore c hlast
    rw [List.append_assoc, List.singleton_append, words_append_cons hc, words_append_cons hc,
      words_nil, List.append_nil]

/-- A line can be cut before a blank. -/
theorem words_append_of_head? {after : List Char} (hafter : ∀ c ∈ after.head?, isBlank c = true)
    (before : List Char) : words (before ++ after) = words before ++ words after := by
  cases after with
  | nil => rw [words_nil, List.append_nil, List.append_nil]
  | cons c rest =>
    have hc := hafter c rfl
    rw [words_append_cons hc, words_cons hc]

/-! ### Meaning -/

theorem emissions_append (map : ChannelMap) (led : Nat) (first second : List (List Char)) :
    emissions map led (first ++ second) =
      emissions map led first ++ emissions map (ledAfterAll map led first) second := by
  induction first generalizing led with
  | nil => rfl
  | cons word rest ih =>
    rw [List.cons_append, emissions, ih, emissions, List.append_assoc]
    rfl

theorem ledAfterAll_append (map : ChannelMap) (led : Nat) (first second : List (List Char)) :
    ledAfterAll map led (first ++ second) =
      ledAfterAll map (ledAfterAll map led first) second := by
  unfold ledAfterAll
  exact List.foldl_append

theorem lineFates_append (map : ChannelMap) (led : Nat) (first second : List Token) :
    lineFates map led (first ++ second) =
      lineFates map led first ++ lineFates map (lineLed map led first) second := by
  induction first generalizing led with
  | nil => rfl
  | cons token rest ih =>
    rw [List.cons_append, lineFates, ih, lineFates, List.append_assoc]
    rfl

theorem lineLed_append (map : ChannelMap) (led : Nat) (first second : List Token) :
    lineLed map led (first ++ second) = lineLed map (lineLed map led first) second := by
  unfold lineLed
  exact List.foldl_append

/-- What is accepted has the operations that it means as its body. -/
theorem emissions_of_ok {line : String} {map : ChannelMap} {led : Nat} {c : Compiled}
    (h : compile line map led = .ok c) :
    c.sequence.body.toList = emissions map led (words line.toList) ∧
      c.led = ledAfterAll map led (words line.toList) := by
  rw [compile_eq] at h
  simp only at h
  split at h
  · next hlength =>
    cases h
    exact ⟨Sequence.body_ofList (rewind_notMem_emissions map led _) hlength, rfl⟩
  · cases h

/-- What is rejected means too many operations. -/
theorem emissions_of_error {line : String} {map : ChannelMap} {led : Nat} {e : CompileError}
    (h : compile line map led = .error e) :
    capacity ≤ (emissions map led (words line.toList)).length ∧ e = .tooLong capacity := by
  rw [compile_eq] at h
  simp only at h
  split at h
  · cases h
  · next hlength =>
    cases h
    exact ⟨Nat.le_of_not_lt hlength, rfl⟩

theorem compile_of_lt {line : String} {map : ChannelMap} {led : Nat}
    (h : (emissions map led (words line.toList)).length < capacity) :
    ∃ c, compile line map led = .ok c := by
  rw [compile_eq]
  simp only
  rw [if_pos h]
  exact ⟨_, rfl⟩

theorem compile_of_le {line : String} {map : ChannelMap} {led : Nat}
    (h : capacity ≤ (emissions map led (words line.toList)).length) :
    compile line map led = .error (.tooLong capacity) := by
  rw [compile_eq]
  simp only
  rw [if_neg (Nat.not_lt.2 h)]

/-! ### Words of letters -/

/-- No letter is blank. -/
theorem not_isBlank_of_isAlphabetic {c : Char} (h : isAlphabetic c = true) :
    isBlank c = false := by
  have hapart : ∀ range ∈ alphabeticRanges, ∀ blank ∈ [(9, 13), (32, 32), (0x85, 0x85),
      (0xA0, 0xA0), (0x1680, 0x1680), (0x2000, 0x200A), (0x2028, 0x2029), (0x202F, 0x202F),
      (0x205F, 0x205F), (0x3000, 0x3000)], range.2 < blank.1 ∨ blank.2 < range.1 := by
    decide +kernel
  unfold isAlphabetic at h
  rw [List.any_eq_true] at h
  obtain ⟨range, hmem, hrange⟩ := h
  simp only [Bool.and_eq_true, decide_eq_true_eq] at hrange
  have hapart := hapart range hmem
  simp only [List.mem_cons, List.not_mem_nil, or_false, forall_eq_or_imp, forall_eq] at hapart
  unfold isBlank
  simp only [Bool.or_eq_false_iff, Bool.and_eq_false_iff, decide_eq_false_iff_not,
    beq_eq_false_iff_ne]
  omega

theorem ofWord_of_isAlphabetic {word : List Char} (hword : ∀ c ∈ word, isAlphabetic c = true) :
    Token.ofWord word = .channels word := by
  -- the other shapes have a character that is no letter
  have hoff : word ≠ ['-'] := by
    rintro rfl
    have hdash := le_toNat_of_isAlphabetic (hword '-' List.mem_cons_self)
    exact absurd hdash (by decide)
  have hlast : word.getLast? ≠ some ':' := by
    intro hcolon
    have hletter := hword ':' (List.mem_of_getLast? hcolon)
    rw [isAlphabetic_colon] at hletter
    cases hletter
  have hdigit : startsWithDigit word = false := by
    cases word with
    | nil => rfl
    | cons c rest =>
      show c.isDigit = false
      rw [← Bool.not_eq_true]
      intro hc
      have hletter := hword c List.mem_cons_self
      rw [not_isAlphabetic_of_isDigit hc] at hletter
      cases hletter
  unfold Token.ofWord
  rw [if_neg hoff, if_neg hlast, hdigit, if_neg Bool.false_ne_true,
    if_pos (List.all_eq_true.2 hword)]

/-- Letters ask for the same whether they stand in one word or in two. -/
theorem tokenFates_channels_append (map : ChannelMap) (led : Nat) (letters more : List Char) :
    tokenFates map led (.channels (letters ++ more)) =
      tokenFates map led (.channels letters) ++ tokenFates map led (.channels more) := by
  unfold tokenFates
  cases map.led? led with
  | none => rfl
  | some led => exact List.map_append

/-- A word of letters can be taken apart anywhere: neither what the line asks for nor what is noted
    about it changes. -/
theorem compilation_insert_gap {before first gap second after : List Char}
    (hbefore : ∀ c ∈ before.getLast?, isBlank c = true)
    (hafter : ∀ c ∈ after.head?, isBlank c = true) (hfirst : first ≠ []) (hsecond : second ≠ [])
    (hletters : ∀ c ∈ first ++ second, isAlphabetic c = true)
    (hgap : ∀ c ∈ gap, isBlank c = true) (map : ChannelMap) (led : Nat) :
    compilation (String.ofList (before ++ (first ++ gap ++ second ++ after))) map led =
      compilation (String.ofList (before ++ (first ++ second ++ after))) map led := by
  by_cases hnil : gap = []
  · rw [hnil, List.append_nil]
  have hblank : ∀ c ∈ first ++ second, isBlank c = false := by
    intro c hc
    exact not_isBlank_of_isAlphabetic (hletters c hc)
  obtain ⟨hletters₁, hletters₂⟩ := List.forall_mem_append.1 hletters
  obtain ⟨hblank₁, hblank₂⟩ := List.forall_mem_append.1 hblank
  -- the rest of the line has the same words in both
  have hone : words (before ++ (first ++ second ++ after)) =
      words before ++ ([first ++ second] ++ words after) := by
    have hne : first ++ second ≠ [] := List.append_ne_nil_of_left_ne_nil hfirst second
    rw [words_append_of_getLast? hbefore, words_append_of_head? hafter,
      words_of_not_isBlank hne hblank]
  have htwo : words (before ++ (first ++ gap ++ second ++ after)) =
      words before ++ ([first, second] ++ words after) := by
    rw [words_append_of_getLast? hbefore, words_append_of_head? hafter,
      words_append_gap hnil hgap, words_of_not_isBlank hfirst hblank₁,
      words_of_not_isBlank hsecond hblank₂]
    rfl
  have hfates (led : Nat) : lineFates map led [.channels first, .channels second] =
      lineFates map led [.channels (first ++ second)] := by
    simp only [lineFates, tokenLed, tokenFates_channels_append, List.append_nil]
  have htokens : tokens (String.ofList (before ++ (first ++ second ++ after))) =
      (words before).map Token.ofWord ++
        ([.channels (first ++ second)] ++ (words after).map Token.ofWord) := by
    rw [tokens, String.toList_ofList, hone, List.map_append, List.map_append, List.map_singleton,
      ofWord_of_isAlphabetic hletters]
  have htokens' : tokens (String.ofList (before ++ (first ++ gap ++ second ++ after))) =
      (words before).map Token.ofWord ++
        ([.channels first, .channels second] ++ (words after).map Token.ofWord) := by
    rw [tokens, String.toList_ofList, htwo, List.map_append, List.map_append, List.map_cons,
      List.map_singleton, ofWord_of_isAlphabetic hletters₁, ofWord_of_isAlphabetic hletters₂]
  rw [compilation_eq, compilation_eq, htokens, htokens']
  simp only [lineFates_append, lineLed_append, hfates]
  rfl

/-! ### Pieces -/

section Pieces

variable {map : ChannelMap} {led : Nat} {a gap b : String} {first second : Compiled}

theorem words_pieces (hne : gap ≠ "") (hgap : ∀ c ∈ gap.toList, isBlank c = true) :
    words (a ++ gap ++ b).toList = words a.toList ++ words b.toList := by
  have hgap_ne : gap.toList ≠ [] := by
    intro hnil
    exact hne (String.toList_eq_nil_iff.1 hnil)
  rw [String.toList_append, String.toList_append, words_append_gap hgap_ne hgap]

/-- A line is too long when its first piece is. -/
theorem error_of_first (hne : gap ≠ "") (hgap : ∀ c ∈ gap.toList, isBlank c = true)
    {e : CompileError} (ha : compile a map led = .error e) :
    compile (a ++ gap ++ b) map led = .error e := by
  obtain ⟨hlong, rfl⟩ := emissions_of_error ha
  apply compile_of_le
  rw [words_pieces hne hgap, emissions_append, List.length_append]
  omega

/-- Behind an accepted piece and blanks, a line goes on with the LED that the piece leaves. -/
theorem emissions_pieces (hne : gap ≠ "") (hgap : ∀ c ∈ gap.toList, isBlank c = true)
    (ha : compile a map led = .ok first) :
    emissions map led (words (a ++ gap ++ b).toList) =
        first.sequence.body.toList ++ emissions map first.led (words b.toList) ∧
      ledAfterAll map led (words (a ++ gap ++ b).toList) =
        ledAfterAll map first.led (words b.toList) := by
  obtain ⟨hbody, hled⟩ := emissions_of_ok ha
  rw [words_pieces hne hgap, emissions_append, ledAfterAll_append, hbody, hled]
  exact ⟨rfl, rfl⟩

/-- A line is too long when its second piece is. -/
theorem error_of_second (hne : gap ≠ "") (hgap : ∀ c ∈ gap.toList, isBlank c = true)
    (ha : compile a map led = .ok first) {e : CompileError}
    (hb : compile b map first.led = .error e) : compile (a ++ gap ++ b) map led = .error e := by
  obtain ⟨hops, _⟩ := emissions_pieces (b := b) hne hgap ha
  obtain ⟨hlong, rfl⟩ := emissions_of_error hb
  apply compile_of_le
  rw [hops, List.length_append]
  omega

/-- A line is too long when its pieces together are. -/
theorem error_of_both (hne : gap ≠ "") (hgap : ∀ c ∈ gap.toList, isBlank c = true)
    (ha : compile a map led = .ok first) (hb : compile b map first.led = .ok second)
    (hlong : 999 < (first.sequence.body.toList ++ second.sequence.body.toList).length) :
    compile (a ++ gap ++ b) map led = .error (.tooLong 1000) := by
  obtain ⟨hops, _⟩ := emissions_pieces (b := b) hne hgap ha
  obtain ⟨hbody, _⟩ := emissions_of_ok hb
  apply compile_of_le
  rw [hops, ← hbody]
  exact hlong

/-- Pieces that have room together make up the line. -/
theorem ok_of_both (hne : gap ≠ "") (hgap : ∀ c ∈ gap.toList, isBlank c = true)
    (ha : compile a map led = .ok first) (hb : compile b map first.led = .ok second)
    (hshort : (first.sequence.body.toList ++ second.sequence.body.toList).length ≤ 999) :
    ∃ whole, compile (a ++ gap ++ b) map led = .ok whole ∧
      whole.sequence.body.toList = first.sequence.body.toList ++ second.sequence.body.toList ∧
      whole.led = second.led := by
  obtain ⟨hops, hled⟩ := emissions_pieces (b := b) hne hgap ha
  obtain ⟨hbody, hleft⟩ := emissions_of_ok hb
  rw [← hbody] at hops
  rw [← hleft] at hled
  have hlt : (emissions map led (words (a ++ gap ++ b).toList)).length < capacity := by
    rw [hops]
    exact Nat.lt_succ_of_le hshort
  obtain ⟨whole, hwhole⟩ := compile_of_lt hlt
  obtain ⟨hbody', hled'⟩ := emissions_of_ok hwhole
  exact ⟨whole, hwhole, hbody'.trans hops, hled'.trans hled⟩

end Pieces

/-- A sequence is static when both parts of its body are. -/
theorem Sequence.isStatic_of_append {s t u : Sequence}
    (h : s.body.toList = t.body.toList ++ u.body.toList) :
    s.isStatic = (t.isStatic && u.isStatic) := by
  rw [s.isStatic_eq, t.isStatic_eq, u.isStatic_eq, ← Array.all_toList, ← Array.all_toList,
    ← Array.all_toList, h, List.all_append]

/-- **Lines are compiled piece by piece.** When blanks stand between two pieces, a line whose first
    piece is rejected is rejected. Otherwise the second piece is compiled from the LED that the
    first one leaves: the line is rejected when the second piece is, or when both together ask for
    more than 999 operations, and else it has the operations of both in order, is static when both
    are, and leaves the LED that the second piece leaves. A word of letters can be taken apart by
    blanks anywhere, and nothing about the line changes. -/
theorem compile_append_gap (map : ChannelMap) (led : Nat) :
    (∀ a gap b : String, gap ≠ "" → (∀ c ∈ gap.toList, isBlank c = true) →
      (∀ e, compile a map led = .error e → compile (a ++ gap ++ b) map led = .error e) ∧
      ∀ first, compile a map led = .ok first →
        (∀ e, compile b map first.led = .error e → compile (a ++ gap ++ b) map led = .error e) ∧
        ∀ second, compile b map first.led = .ok second →
          let ops := first.sequence.body.toList ++ second.sequence.body.toList
          (999 < ops.length → compile (a ++ gap ++ b) map led = .error (.tooLong 1000)) ∧
          (ops.length ≤ 999 → ∃ whole, compile (a ++ gap ++ b) map led = .ok whole ∧
            whole.sequence.operations = ops ++ [.rewind] ∧
            whole.sequence.isStatic = (first.sequence.isStatic && second.sequence.isStatic) ∧
            whole.led = second.led)) ∧
    ∀ before first gap second after : List Char,
      (∀ c ∈ before.getLast?, isBlank c = true) → (∀ c ∈ after.head?, isBlank c = true) →
      first ≠ [] → second ≠ [] → (∀ c ∈ first ++ second, isAlphabetic c = true) →
      (∀ c ∈ gap, isBlank c = true) →
      compile (String.ofList (before ++ (first ++ gap ++ second ++ after))) map led =
        compile (String.ofList (before ++ (first ++ second ++ after))) map led := by
  constructor
  · intro a gap b hne hgap
    constructor
    · intro e ha
      exact error_of_first hne hgap ha
    intro first ha
    constructor
    · intro e hb
      exact error_of_second hne hgap ha hb
    intro second hb ops
    constructor
    · intro hlong
      exact error_of_both hne hgap ha hb hlong
    · intro hshort
      obtain ⟨whole, hwhole, hbody, hled⟩ := ok_of_both hne hgap ha hb hshort
      refine ⟨whole, hwhole, ?_, Sequence.isStatic_of_append hbody, hled⟩
      unfold Sequence.operations
      rw [hbody]
  · intro before first gap second after hbefore hafter hfirst hsecond hletters hgap
    unfold compile
    rw [compilation_insert_gap hbefore hafter hfirst hsecond hletters hgap]

/-- A map with two LEDs. -/
def duo : ChannelMap where
  leds := [{ name := "A", channels := [{ letter := 'r', pin := ⟨1⟩ }] },
    { name := "B", channels := [{ letter := 'g', pin := ⟨2⟩ }, { letter := 'r', pin := ⟨3⟩ }] }]

/-- The second piece addresses the LED that the first one selects, and its word of letters can be
    taken apart. -/
theorem compile_append_gap_duo :
    let first : Compiled := { sequence := .ofList [.on ⟨1⟩], led := 1 }
    let second : Compiled :=
      { sequence := .ofList [.on ⟨2⟩, .off ⟨3⟩, .pause { seconds := 5, nanos := 0 }], led := 1 }
    compile "R B:" duo 0 = .ok first ∧ compile "Gr 5s" duo 1 = .ok second ∧
      (∃ whole, compile ("R B:" ++ "\t " ++ "Gr 5s") duo 0 = .ok whole ∧
        whole.sequence.operations = [.on ⟨1⟩, .on ⟨2⟩, .off ⟨3⟩,
          .pause { seconds := 5, nanos := 0 }, .rewind] ∧
        whole.sequence.isStatic = false ∧ whole.led = 1) ∧
      compile "R B: G\tr 5s" duo 0 = compile "R B: Gr 5s" duo 0 := by
  intro first second
  have hfirst : compile "R B:" duo 0 = .ok first := by decide +kernel
  have hsecond : compile "Gr 5s" duo 1 = .ok second := by decide +kernel
  have hgap : ∀ c ∈ "\t ".toList, isBlank c = true := List.all_eq_true.1 (by decide)
  have htab : ∀ c ∈ ['\t'], isBlank c = true := List.all_eq_true.1 (by decide)
  have hletters : ∀ c ∈ ['G'] ++ ['r'], isAlphabetic c = true := List.all_eq_true.1 (by decide)
  have hspace : ∀ c ∈ some ' ', isBlank c = true := by
    intro c hc
    rw [← Option.some.inj hc]
    decide
  obtain ⟨hpieces, hinsert⟩ := compile_append_gap duo 0
  obtain ⟨_, haccepted⟩ := hpieces "R B:" "\t " "Gr 5s" (by decide) hgap
  obtain ⟨_, hboth⟩ := haccepted first hfirst
  obtain ⟨_, hroom⟩ := hboth second hsecond
  refine ⟨hfirst, hsecond, hroom (by decide), ?_⟩
  exact hinsert ['R', ' ', 'B', ':', ' '] ['G'] ['\t'] ['r'] [' ', '5', 's'] hspace hspace
    (List.cons_ne_nil _ _) (List.cons_ne_nil _ _) hletters htab

end LedSequencer
