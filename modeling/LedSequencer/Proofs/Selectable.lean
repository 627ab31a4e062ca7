import LedSequencer.Proofs.Addressing
import LedSequencer.Proofs.DocumentedFormat

/-! # Names that can be selected

  A section of a configuration may have any name, but a selector is one word that starts
  with a letter and has its one colon at the end. So an LED is in reach of a line exactly
  when its name is such a word without the colon (`selected_iff_selectable`); any other LED
  is only ever selected when it is the first one.

  * **Words**: no blank is part of a word.
  * **Selectors**: the names that lines can select.
  * **Reach**: what becomes of an LED that has no such name.
-/

namespace LedSequencer

/-! ### Words -/

theorem not_isBlank_of_mem_splitOnP {line run : List Char} (h : run ∈ line.splitOnP isBlank) :
    ∀ c ∈ run, isBlank c = false := by
  induction line generalizing run with
  | nil =>
    rw [List.splitOnP_nil, List.mem_singleton] at h
    subst h
    simp
  | cons first rest ih =>
    rw [List.splitOnP_cons_eq_if_modifyHead] at h
    split at h
    · -- a blank ends the run in front of it
      rcases List.mem_cons.1 h with rfl | hrest
      · simp
      · exact ih hrest
    · next hfirst =>
      cases hruns : rest.splitOnP isBlank with
      | nil =>
        rw [hruns] at h
        cases h
      | cons head runs =>
        rw [hruns] at h ih
        rcases List.mem_cons.1 h with rfl | hrest
        · intro c hc
          rcases List.mem_cons.1 hc with rfl | hc
          · exact Bool.not_eq_true _ ▸ hfirst
          · exact ih List.mem_cons_self c hc
        · exact ih (List.mem_cons_of_mem head hrest)

/-- No blank is part of a word. -/
theorem not_isBlank_of_mem_words {line word : List Char} (h : word ∈ words line) :
    ∀ c ∈ word, isBlank c = false :=
  not_isBlank_of_mem_splitOnP (List.mem_filter.1 h).1

/-! ### Selectors -/

/-- A name that a selector can name: it starts with an alphabetic character, and it has neither a
    colon nor a blank. -/
def IsSelectable (name : String) : Prop :=
  name.toList.head?.any isAlphabetic = true ∧ ∀ c ∈ name.toList, c ≠ ':' ∧ isBlank c = false

theorem isSelectorName_iff {name : List Char} :
    isSelectorName name = true ↔ name.head?.any isAlphabetic = true ∧ ':' ∉ name := by
  cases name with
  | nil => simp [isSelectorName]
  | cons c rest => simp [isSelectorName]

/-- A word is a selector when it is a name with one colon, which is its last character. -/
theorem Token.ofWord_eq_select_iff {word : List Char} {name : String} :
    Token.ofWord word = .select name ↔
      word = name.toList ++ [':'] ∧ isSelectorName name.toList = true := by
  constructor
  · intro h
    unfold Token.ofWord at h
    split at h
    · cases h
    split at h
    · next hlast =>
      split at h
      · next hname =>
        obtain ⟨front, rfl⟩ := List.getLast?_eq_some_iff.1 hlast
        rw [List.dropLast_concat] at h hname
        cases h
        rw [String.toList_ofList]
        exact ⟨rfl, hname⟩
      · cases h
    split at h
    · split at h <;> cases h
    split at h <;> cases h
  · rintro ⟨rfl, hname⟩
    -- the hyphen alone is a word of its own
    have hoff : name.toList ++ [':'] ≠ ['-'] := by
      intro h
      have hlasts := congrArg List.getLast? h
      simp at hlasts
    unfold Token.ofWord
    rw [if_neg hoff, if_pos List.getLast?_concat, List.dropLast_concat, if_pos hname,
      String.ofList_toList]

/-- Lines have selectors for selectable names alone. -/
theorem isSelectable_of_mem_tokens {line name : String} (h : .select name ∈ tokens line) :
    IsSelectable name := by
  obtain ⟨word, hword, hselect⟩ := List.mem_map.1 h
  obtain ⟨rfl, hname⟩ := Token.ofWord_eq_select_iff.1 hselect
  obtain ⟨hhead, hcolon⟩ := isSelectorName_iff.1 hname
  refine ⟨hhead, ?_⟩
  intro c hc
  refine ⟨?_, not_isBlank_of_mem_words hword c (List.mem_append_left _ hc)⟩
  rintro rfl
  exact hcolon hc

/-- A selectable name with a colon is a line of one selector. -/
theorem IsSelectable.tokens_append {name : String} (h : IsSelectable name) :
    tokens (name ++ ":") = [.select name] := by
  have hchars : (name ++ ":").toList = name.toList ++ [':'] := String.toList_append
  have hwords : words (name.toList ++ [':']) = [name.toList ++ [':']] := by
    refine words_of_not_isBlank (by simp) ?_
    intro c hc
    rcases List.mem_append.1 hc with hname | hcolon
    · exact (h.2 c hname).2
    · rw [List.mem_singleton.1 hcolon]
      decide
  have hselector : isSelectorName name.toList = true :=
    isSelectorName_iff.2 ⟨h.1, fun hcolon => (h.2 ':' hcolon).1 rfl⟩
  unfold tokens
  rw [hchars, hwords, List.map_singleton, Token.ofWord_eq_select_iff.2 ⟨rfl, hselector⟩]

/-- Names of letters alone are selectable. -/
theorem isSelectable_of_isAlphabetic {name : String} (hne : name ≠ "")
    (h : ∀ c ∈ name.toList, isAlphabetic c = true) : IsSelectable name := by
  constructor
  · cases hname : name.toList with
    | nil => exact absurd (String.toList_eq_nil_iff.1 hname) hne
    | cons c rest => exact h c (hname ▸ List.mem_cons_self)
  · intro c hc
    refine ⟨?_, not_isBlank_of_isAlphabetic (h c hc)⟩
    rintro rfl
    have hcolon := h ':' hc
    rw [isAlphabetic_colon] at hcolon
    cases hcolon

/-- Names that start with a digit, a hyphen or an underscore are not selectable. -/
theorem not_isSelectable_of_head {name : String} {c : Char} (hhead : name.toList.head? = some c)
    (hc : c.isDigit = true ∨ c = '-' ∨ c = '_') : ¬ IsSelectable name := by
  intro h
  have halphabetic := h.1
  rw [hhead, Option.any_some] at halphabetic
  rcases hc with hdigit | rfl | rfl
  · rw [not_isAlphabetic_of_isDigit hdigit] at halphabetic
    cases halphabetic
  · exact absurd (le_toNat_of_isAlphabetic halphabetic) (by decide)
  · revert halphabetic
    decide +kernel

/-! ### Reach -/

section Reach

variable {map : ChannelMap} {i j : Nat} {led : Led}

/-- The LED that a known name stands for has that name. -/
theorem ChannelMap.name_eq_of_find? (hi : map.led? i = some led) {name : String}
    (hfind : map.find? name = some i) : led.name = name := by
  obtain ⟨found, hfound, hname⟩ := ChannelMap.led?_of_find? hfind
  rw [hi] at hfound
  cases hfound
  exact hname

/-- An LED that tokens of lines select, where another place was selected before, has a selectable
    name. -/
theorem isSelectable_of_lineLed (hi : map.led? i = some led) (hj : j ≠ i) {ts : List Token}
    (hts : ∀ name, .select name ∈ ts → IsSelectable name) (hled : lineLed map j ts = i) :
    IsSelectable led.name := by
  rcases lineLed_eq_or map j ts with hsame | ⟨name, hmem, hfind⟩
  · exact absurd (hsame.symm.trans hled) hj
  · rw [hled] at hfind
    rw [ChannelMap.name_eq_of_find? hi hfind]
    exact hts name hmem

/-- A selector of its name selects an LED. -/
theorem IsSelectable.compile_eq (h : IsSelectable led.name) (hsound : map.IsSound)
    (hi : map.led? i = some led) (j : Nat) :
    ∃ c, compile (led.name ++ ":") map j = .ok c ∧ c.led = i := by
  have hfind := hsound.find?_name hi
  unfold compile compilation
  rw [h.tokens_append]
  refine ⟨{ sequence := .idle, led := i }, ?_, rfl⟩
  simp only [List.foldlM_cons, List.foldlM_nil, Draft.token, hfind]
  rfl

/-- What an accepted line leaves selected is what its tokens leave. -/
theorem led_of_compile {line : String} {c : Compiled} (h : compile line map j = .ok c) :
    c.led = lineLed map j (tokens line) := by
  obtain ⟨d, hd, rfl⟩ := exists_draft_of_compile h
  exact (Draft.of_foldlM_token hd).1

/-- Where an LED without a selectable name was not selected before, a line switches none of its
    pins. -/
theorem notMem_pins_of_compile (hsound : map.IsSound) (hi : map.led? i = some led)
    (hname : ¬ IsSelectable led.name) (hj : j ≠ i) {line : String} {c : Compiled}
    (h : compile line map j = .ok c) {op : Operation} (hop : op ∈ c.sequence.body) {pin : Pin}
    {level : Level} (ht : op.transition = some (pin, level)) : pin ∉ led.pins := by
  intro hpin
  obtain ⟨n, hn⟩ := Array.getElem?_of_mem hop
  obtain ⟨earlier, t, _, _, happends, haddressed⟩ :=
    exists_appends_of_compile hsound h hn ht hi hpin
  rcases haddressed with hsame | ⟨name, hmem, hfind⟩
  · exact hj hsame.symm
  · -- the selector is part of the line
    have hline : .select name ∈ tokens line :=
      happends.isPrefix.subset (List.mem_append_left _ hmem)
    apply hname
    rw [ChannelMap.name_eq_of_find? hi hfind]
    exact isSelectable_of_mem_tokens hline

end Reach

/-- Every bare name can be that of a second LED. -/
theorem exists_second_led {name : String} (hbare : IsBareName name) :
    ∃ text map led, ChannelMap.ofText text = .ok map ∧ map.led? 1 = some led ∧ led.name = name := by
  -- the first LED needs another name
  obtain ⟨first, hfirst, hne⟩ : ∃ first, IsBareName first ∧ first ≠ name := by
    by_cases h : "A" = name
    · exact ⟨"B", by decide, by rw [← h]; decide⟩
    · exact ⟨"A", by decide, h⟩
  let map : ChannelMap :=
    { leds := [{ name := first, channels := [{ letter := 'r', pin := ⟨1⟩ }] },
      { name, channels := [{ letter := 'r', pin := ⟨2⟩ }] }] }
  have hpins : map.pins = [⟨1⟩, ⟨2⟩] := rfl
  have hsound : map.IsSound := by
    constructor
    · simp [map]
    · simpa [map] using hne
    · simp [map]
    · rw [hpins]
      decide
    · rw [hpins]
      decide
  obtain ⟨text, htext⟩ := hsound.exists_text (by simpa [map] using ⟨hfirst, hbare⟩)
  exact ⟨text, _, _, htext, rfl, rfl⟩

namespace ChannelMap

variable {σ : Type} [PinDriver σ]

/-- **What can be selected.** Over a channel map that was read, and where another LED is selected,
    the name of an LED with a colon is a line that selects the LED exactly when the name is
    selectable. When it is not, no line at all selects the LED or switches a pin of it, and a
    session has it selected only as the first LED. That goes for names that start with a digit, a
    hyphen or an underscore, which LEDs at any place may have. -/
theorem selected_iff_selectable {text : String} {map : ChannelMap} (hmap : ofText text = .ok map)
    {i : Nat} {led : Led} (hi : map.led? i = some led) :
    (∀ j, j ≠ i → ((∃ c, compile (led.name ++ ":") map j = .ok c ∧ c.led = i) ↔
      IsSelectable led.name)) ∧
    (¬ IsSelectable led.name →
      (∀ line j c, j ≠ i → compile line map j = .ok c → c.led ≠ i ∧
        ∀ op ∈ c.sequence.body, ∀ pin level, op.transition = some (pin, level) →
          pin ∉ led.pins) ∧
      ∀ (w : World σ) (lines : List String),
        (w.run ((Session.start map).handleEach lines)).1.2.led = i → i = defaultLed) ∧
    ∀ name c, name.toList.head? = some c → (c.isDigit = true ∨ c = '-' ∨ c = '_') →
      ¬ IsSelectable name ∧ (IsBareName name →
        ∃ text' map' led', ofText text' = .ok map' ∧ map'.led? 1 = some led' ∧
          led'.name = name) := by
  have hsound := isSound_of_ofText hmap
  refine ⟨?_, ?_, ?_⟩
  · intro j hj
    constructor
    · intro h
      obtain ⟨c, hc, hled⟩ := h
      rw [led_of_compile hc] at hled
      exact isSelectable_of_lineLed hi hj (fun _ => isSelectable_of_mem_tokens) hled
    · intro h
      exact h.compile_eq hsound hi j
  · intro hname
    constructor
    · -- one line: what it selects and switches
      intro line j c hj hc
      constructor
      · intro hled
        rw [led_of_compile hc] at hled
        exact hname (isSelectable_of_lineLed hi hj (fun _ => isSelectable_of_mem_tokens) hled)
      · intro op hop pin level ht
        exact notMem_pins_of_compile hsound hi hname hj hc hop ht
    · -- a session: all its selectors together lead from the first LED to the last one
      intro w lines hled
      by_contra hne
      rw [(Session.led_run_handleEach (Session.start map) lines w).2] at hled
      refine hname (isSelectable_of_lineLed hi (Ne.symm hne) ?_ hled)
      intro name hmem
      obtain ⟨line, _, hline⟩ := List.mem_flatMap.1 hmem
      exact isSelectable_of_mem_tokens hline
  · intro name c hhead hc
    exact ⟨not_isSelectable_of_head hhead hc, exists_second_led⟩

/-- The second LED has a name that no selector can name; the line `2 B:` is for the third one. -/
def shadowed : ChannelMap where
  leds :=
    [{ name := "A", channels := [{ letter := 'r', pin := ⟨1⟩, letter_isLower := Eq.refl true }] },
      { name := "2 B",
        channels := [{ letter := 'r', pin := ⟨2⟩, letter_isLower := Eq.refl true }] },
      { name := "B", channels := [{ letter := 'r', pin := ⟨3⟩, letter_isLower := Eq.refl true }] }]

theorem selected_iff_selectable_shadowed :
    ofText "[A]\nr = 1\n['2 B']\nr = 2\n[B]\nr = 3\n" = .ok shadowed ∧
      (¬ ∃ c, compile "2 B:" shadowed 0 = .ok c ∧ c.led = 1) ∧
      (∃ c, compile "B:" shadowed 0 = .ok c ∧ c.led = 2) ∧
      ((World.start Hardware.nothing).run
        ((Session.start shadowed).handleEach ["2 B:", "R"])).1.2.led ≠ 1 := by
  have hmap : ofText "[A]\nr = 1\n['2 B']\nr = 2\n[B]\nr = 3\n" = .ok shadowed := by
    decide +kernel
  have hbad : ¬ IsSelectable "2 B" :=
    not_isSelectable_of_head (c := '2') (by decide) (.inl (by decide))
  have hgood : IsSelectable "B" := by
    refine isSelectable_of_isAlphabetic (by decide) ?_
    have hchars : "B".toList = ['B'] := rfl
    rw [hchars, List.forall_mem_singleton]
    exact isAlphabetic_of_isAlpha (by decide)
  obtain ⟨hsecond, hunreached, _⟩ := @selected_iff_selectable Hardware _ _ _ hmap 1 _ rfl
  obtain ⟨hthird, _⟩ := @selected_iff_selectable Hardware _ _ _ hmap 2 _ rfl
  refine ⟨hmap, ?_, ?_, ?_⟩
  · intro h
    have hline : "2 B:" = "2 B" ++ ":" := by decide +kernel
    rw [hline] at h
    exact hbad ((hsecond 0 (by decide)).1 h)
  · have hline : "B:" = "B" ++ ":" := by decide +kernel
    rw [hline]
    exact (hthird 0 (by decide)).2 hgood
  · intro hled
    have hfirst := (hunreached hbad).2 _ _ hled
    cases hfirst

end ChannelMap

end LedSequencer
