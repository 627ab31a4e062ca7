import LedSequencer.Proofs.Drafting
import Mathlib.Data.List.TakeWhile

/-! # What a line emits

  The meaning of a line with no bound on its length. A word is looked at twice, and
  each look has its own rule: one says which LED is selected after the word, the other
  which operations it emits. No rule comes before another one; that the shapes of words
  exclude each other is proved (`tokenFates_ofWord`), as far as it is needed.

  A line is accepted exactly when it emits at most 999 operations, and then the
  sequence is what it emits (`compile_iff_emissions`).
-/

namespace LedSequencer

/-! ### The meaning of a word -/

/-- The name of the LED that a word selects: what stands before the one colon, which ends the
    word, when it starts with an alphabetic character. -/
def selector? (word : List Char) : Option String :=
  let name := word.takeWhile fun c => c != ':'
  if word = name ++ [':'] ∧ name.head?.any isAlphabetic = true then some (String.ofList name)
  else none

/-- The place that is selected after a word: a selector of no LED changes nothing. -/
def ledAfter (map : ChannelMap) (led : Nat) (word : List Char) : Nat :=
  match selector? word with
  | some name => (map.find? name).getD led
  | none => led

/-- What a letter emits: a channel of the selected LED is switched on by its letter in upper case
    and off by its letter in lower case. -/
def letterEmission (led : Led) (c : Char) : List Operation :=
  match led.pin? c with
  | some pin => if c.isUpper then [.on pin] else [.off pin]
  | none => []

/-- What a word emits with the LED at the given place selected; without an LED there, only pauses
    are left. -/
def emission (map : ChannelMap) (led : Nat) (word : List Char) : List Operation :=
  let selected := (map.led? led).toList
  if word = ['-'] then selected.flatMap fun led => led.pins.map .off
  else if word.all isAlphabetic then selected.flatMap fun led => word.flatMap (letterEmission led)
  else if word.head?.any Char.isDigit then (Span.ofLiteral? word).toList.map .pause
  else []

/-- What words emit in order. -/
def emissions (map : ChannelMap) : Nat → List (List Char) → List Operation
  | _, [] => []
  | led, word :: rest => emission map led word ++ emissions map (ledAfter map led word) rest

/-- The place that is selected after words in order. -/
def ledAfterAll (map : ChannelMap) (led : Nat) (words : List (List Char)) : Nat :=
  words.foldl (ledAfter map) led

/-! ### The shapes of words exclude each other -/

theorem le_toNat_of_isAlphabetic {c : Char} (h : isAlphabetic c = true) : 0x41 ≤ c.toNat := by
  have hranges : ∀ range ∈ alphabeticRanges, 0x41 ≤ range.1 := by decide +kernel
  unfold isAlphabetic at h
  rw [List.any_eq_true] at h
  obtain ⟨range, hmem, hrange⟩ := h
  simp only [Bool.and_eq_true, decide_eq_true_eq] at hrange
  exact Nat.le_trans (hranges range hmem) hrange.1

theorem isAlphabetic_colon : isAlphabetic ':' = false := by
  rw [← Bool.not_eq_true]
  intro h
  exact absurd (le_toNat_of_isAlphabetic h) (by decide)

theorem not_isAlphabetic_of_isDigit {c : Char} (h : c.isDigit = true) :
    isAlphabetic c = false := by
  rw [← Bool.not_eq_true]
  intro hc
  have hlow := le_toNat_of_isAlphabetic hc
  have hhigh : c.toNat ≤ '9'.toNat := by
    simp only [Char.isDigit, Bool.and_eq_true, decide_eq_true_eq] at h
    exact h.2
  have hnine : '9'.toNat = 0x39 := rfl
  omega

/-- No unit holds a colon. -/
theorem colon_notMem_of_suffixUnit? {suffix : List Char} {unit : SpanUnit}
    (h : suffixUnit? suffix = some unit) : ':' ∉ suffix := by
  unfold suffixUnit? at h
  split at h
  · next hnil => simp [hnil]
  · unfold SpanUnit.ofSuffix? at h
    split at h <;> first | decide | cases h

/-- No pause literal holds a colon. -/
theorem ofLiteral?_of_colon_mem {word : List Char} (h : ':' ∈ word) :
    Span.ofLiteral? word = none := by
  have hdrop : ':' ∈ word.dropWhile Char.isDigit := by
    rw [← List.takeWhile_append_dropWhile (p := Char.isDigit) (l := word), List.mem_append] at h
    rcases h with h | h
    · exact absurd (List.mem_takeWhile_imp h) (by decide)
    · exact h
  have hunit : suffixUnit? (word.dropWhile Char.isDigit) = none := by
    cases hs : suffixUnit? (word.dropWhile Char.isDigit) with
    | none => rfl
    | some unit => exact absurd hdrop (colon_notMem_of_suffixUnit? hs)
  unfold Span.ofLiteral?
  rw [hunit]
  rfl

/-- What is selected by a word that ends in a colon. -/
theorem selector?_append_colon (name : List Char) :
    selector? (name ++ [':']) =
      if isSelectorName name = true then some (String.ofList name) else none := by
  unfold selector?
  by_cases hcolon : ':' ∈ name
  · -- the first colon of the word is not its last character
    have hname : isSelectorName name = false := by
      cases name with
      | nil => rfl
      | cons c rest => simp [isSelectorName, hcolon]
    have hword : name ++ [':'] ≠ (name ++ [':']).takeWhile (fun c => c != ':') ++ [':'] := by
      intro h
      have heq := List.append_cancel_right h
      rw [heq] at hcolon
      exact absurd (List.mem_takeWhile_imp hcolon) (by decide)
    simp only [hname, Bool.false_eq_true, if_false]
    rw [if_neg fun h => hword h.1]
  · have htake : (name ++ [':']).takeWhile (fun c => c != ':') = name := by
      rw [List.takeWhile_append_of_pos]
      · simp
      · intro c hc
        have hne : c ≠ ':' := fun h => hcolon (h ▸ hc)
        simpa using hne
    rw [htake]
    cases name with
    | nil => simp [isSelectorName]
    | cons c rest =>
      have hrest : (c :: rest).contains ':' = false := by simpa using hcolon
      simp only [isSelectorName, hrest, List.head?_cons, Option.any_some, true_and, Bool.not_false,
        Bool.and_true]

/-- A word that does not end in a colon selects nothing. -/
theorem selector?_of_getLast?_ne {word : List Char} (h : word.getLast? ≠ some ':') :
    selector? word = none := by
  unfold selector?
  simp only
  rw [if_neg]
  rintro ⟨hword, -⟩
  rw [hword] at h
  simp at h

/-- A word that ends in a colon emits nothing. -/
theorem emission_of_getLast?_eq (map : ChannelMap) (led : Nat) {word : List Char}
    (h : word.getLast? = some ':') : emission map led word = [] := by
  have hmem : ':' ∈ word := List.mem_of_getLast? h
  have hoff : word ≠ ['-'] := by
    rintro rfl
    exact absurd hmem (by decide)
  have hall : word.all isAlphabetic = false := by
    rw [List.all_eq_false]
    exact ⟨':', hmem, by simp [isAlphabetic_colon]⟩
  unfold emission
  rw [if_neg hoff, hall, ofLiteral?_of_colon_mem hmem]
  simp

/-- A word that starts with a digit emits a pause or nothing. -/
theorem emission_of_isDigit (map : ChannelMap) (led : Nat) {c : Char} (hc : c.isDigit = true)
    (rest : List Char) :
    emission map led (c :: rest) = (Span.ofLiteral? (c :: rest)).toList.map .pause := by
  have hoff : c :: rest ≠ ['-'] := by
    intro h
    cases h
    exact absurd hc (by decide)
  have hall : (c :: rest).all isAlphabetic = false := by
    rw [List.all_cons, not_isAlphabetic_of_isDigit hc, Bool.false_and]
  unfold emission
  rw [if_neg hoff, hall]
  simp only [Bool.false_eq_true, if_false, List.head?_cons, Option.any_some, hc, if_true]

/-! ### Words and their tokens -/

theorem operations_map_letterFate (led : Led) (letters : List Char) :
    Fate.operations (letters.map (letterFate led)) = letters.flatMap (letterEmission led) := by
  induction letters with
  | nil => rfl
  | cons c rest ih =>
    rw [List.map_cons, List.flatMap_cons, ← ih]
    unfold letterFate letterEmission
    cases led.pin? c with
    | none => rfl
    | some pin =>
      simp only [Fate.operations_emitted, Draft.letterOperation]
      split <;> rfl

/-- The operations of a word's token are what the word emits. -/
theorem operations_tokenFates_ofWord (map : ChannelMap) (led : Nat) (word : List Char) :
    Fate.operations (tokenFates map led (.ofWord word)) = emission map led word := by
  unfold Token.ofWord
  by_cases hoff : word = ['-']
  · rw [if_pos hoff, emission, if_pos hoff]
    cases h : map.led? led with
    | none => simp [tokenFates, h]
    | some l => simp [tokenFates, h, Fate.operations, Fate.operation?, Function.comp_def]
  rw [if_neg hoff]
  by_cases hlast : word.getLast? = some ':'
  · rw [if_pos hlast, emission_of_getLast?_eq map led hlast]
    split
    · cases h : map.find? (String.ofList word.dropLast) <;> simp [tokenFates, h]
    · rfl
  rw [if_neg hlast]
  by_cases hdigit : startsWithDigit word = true
  · obtain ⟨c, rest, rfl, hc⟩ : ∃ c rest, word = c :: rest ∧ c.isDigit = true := by
      cases word with
      | nil => cases hdigit
      | cons c rest => exact ⟨c, rest, rfl, hdigit⟩
    rw [if_pos hdigit, emission_of_isDigit map led hc]
    cases Span.ofLiteral? (c :: rest) <;> rfl
  rw [if_neg hdigit]
  -- a word of no other shape is a run of letters, or it is skipped
  have hhead : word.head?.any Char.isDigit = false := by
    cases word with
    | nil => rfl
    | cons c rest => simpa [startsWithDigit] using hdigit
  unfold emission
  rw [if_neg hoff, hhead]
  split
  · cases h : map.led? led with
    | none => simp [tokenFates, h]
    | some l => simp [tokenFates, h, operations_map_letterFate]
  · rfl

/-- A word's token selects what the word selects. -/
theorem tokenLed_ofWord (map : ChannelMap) (led : Nat) (word : List Char) :
    tokenLed map led (.ofWord word) = ledAfter map led word := by
  by_cases hlast : word.getLast? = some ':'
  · obtain ⟨name, rfl⟩ := List.getLast?_eq_some_iff.1 hlast
    have hoff : name ++ [':'] ≠ ['-'] := by
      intro h
      have hlasts := congrArg List.getLast? h
      simp at hlasts
    unfold ledAfter Token.ofWord
    rw [selector?_append_colon, if_neg hoff, if_pos hlast, List.dropLast_concat]
    split <;> rfl
  · unfold ledAfter Token.ofWord
    rw [selector?_of_getLast?_ne hlast, if_neg hlast]
    split
    · rfl
    split
    · cases Span.ofLiteral? word <;> rfl
    split <;> rfl

theorem operations_lineFates (map : ChannelMap) (led : Nat) (words : List (List Char)) :
    Fate.operations (lineFates map led (words.map Token.ofWord)) = emissions map led words := by
  induction words generalizing led with
  | nil => rfl
  | cons word rest ih =>
    rw [List.map_cons, lineFates, Fate.operations_append, ih, operations_tokenFates_ofWord,
      tokenLed_ofWord, emissions]

theorem lineLed_map_ofWord (map : ChannelMap) (led : Nat) (words : List (List Char)) :
    lineLed map led (words.map Token.ofWord) = ledAfterAll map led words := by
  unfold lineLed ledAfterAll
  rw [List.foldl_map]
  congr 1
  funext led word
  exact tokenLed_ofWord map led word

theorem rewind_notMem_emissions (map : ChannelMap) (led : Nat) (words : List (List Char)) :
    .rewind ∉ emissions map led words := by
  rw [← operations_lineFates]
  exact rewind_notMem_lineFates _ _ _

/-! ### Accepted and rejected lines -/

/-- The result for a line depends on what it emits alone. -/
theorem compile_eq (line : String) (map : ChannelMap) (led : Nat) :
    compile line map led =
      let ops := emissions map led (words line.toList)
      if ops.length < capacity then
        .ok { sequence := .ofList ops, led := ledAfterAll map led (words line.toList) }
      else .error (.tooLong capacity) := by
  unfold compile
  rw [compilation_eq]
  simp only [tokens, operations_lineFates, lineLed_map_ofWord]
  split <;> rfl

/-- **Lines are compiled as they are meant.** A line is accepted exactly when it emits at most 999
    operations. Then the sequence has just these operations before its `rewind`, it is static
    exactly when none of them waits, and the LED of the last selector is selected. Any other line
    is rejected as too long. -/
theorem compile_iff_emissions (map : ChannelMap) (line : String) (led : Nat) :
    let ops := emissions map led (words line.toList)
    ((∃ c, compile line map led = .ok c) ↔ ops.length ≤ 999) ∧
    (∀ c, compile line map led = .ok c →
      c.sequence.operations = ops ++ [.rewind] ∧
      (c.sequence.isStatic = true ↔ ∀ op ∈ ops, op.isPause = false) ∧
      c.led = ledAfterAll map led (words line.toList)) ∧
    (∀ e, compile line map led = .error e ↔ 999 < ops.length ∧ e = .tooLong 1000) := by
  intro ops
  have hops : .rewind ∉ ops := rewind_notMem_emissions map led _
  have hcapacity : capacity = 1000 := rfl
  have heq : compile line map led =
      if ops.length < capacity then
        .ok { sequence := .ofList ops, led := ledAfterAll map led (words line.toList) }
      else .error (.tooLong capacity) := compile_eq line map led
  rw [heq]
  by_cases hlength : ops.length < capacity
  · rw [if_pos hlength]
    have hbody := Sequence.body_ofList hops hlength
    refine ⟨⟨fun _ => by omega, fun _ => ⟨_, rfl⟩⟩, ?_, ?_⟩
    · intro c hc
      cases hc
      refine ⟨by rw [Sequence.operations, hbody], ?_, rfl⟩
      rw [(Sequence.ofList ops).isStatic_eq, ← Array.all_toList, hbody, List.all_eq_true]
      simp
    · intro e
      constructor
      · intro h
        cases h
      · rintro ⟨hlong, -⟩
        omega
  · rw [if_neg hlength]
    refine ⟨⟨?_, fun _ => by omega⟩, ?_, ?_⟩
    · rintro ⟨c, hc⟩
      cases hc
    · intro c hc
      cases hc
    · intro e
      constructor
      · intro h
        cases h
        exact ⟨by omega, rfl⟩
      · rintro ⟨-, rfl⟩
        rfl

end LedSequencer
