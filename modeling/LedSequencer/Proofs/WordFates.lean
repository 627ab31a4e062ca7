import LedSequencer.Proofs.PauseLiterals
import LedSequencer.Proofs.Selectable

/-! # The fates of words and letters

  Whatever is skipped in a line is told in the log, and whatever is not told there has had
  its effect. The rules for that are stated here on their own, none of them before another
  and each note by what it shows; exactly one list of fates satisfies them for a line, and
  the notes of the line are the notes among these fates (`notes_tell_fates`).

  * **Rules**: the fates of a letter, of a word and of a line.
  * **Shapes**: the token that a word of each shape is.
  * **Agreement**: the rules leave the fates that a draft takes in, and no others.
  * **Room**: the fates before the first operation too many.
-/

namespace LedSequencer

/-! ### Rules -/

/-- What an event of the lowest severity shows in the log. -/
structure Event.Shows (event : Event) (message : String) (fields : List (String × String)) :
    Prop where
  severity_eq : event.severity = .trace
  message_eq : event.message = message
  fields_eq : event.fields = fields

/-- The fate of a letter with an LED selected: a channel is switched on by upper case and off by
    lower case, and a letter that is no channel is told as it was written. -/
inductive IsLetterFate (led : Led) (c : Char) : Fate → Prop where
  | on {pin : Pin} (hpin : led.pin? c = some pin) (hcase : c.isUpper = true) :
      IsLetterFate led c (.emitted (.on pin))
  | off {pin : Pin} (hpin : led.pin? c = some pin) (hcase : c.isUpper = false) :
      IsLetterFate led c (.emitted (.off pin))
  | skipped {event : Event} (hpin : led.pin? c = none)
      (hevent : event.Shows "unknown channel ignored"
        [("led", led.name), ("channel", c.toString)]) :
      IsLetterFate led c (.noted event)

/-- The fates of a word with an LED selected. -/
inductive AreWordFates (map : ChannelMap) (led : Led) : List Char → List Fate → Prop where
  /-- All channels of the LED go off. -/
  | allOff : AreWordFates map led ['-'] (led.pins.map fun pin => .emitted (.off pin))
  /-- An LED is selected, and that is all. -/
  | selects {word : List Char} {name : String} (hname : selector? word = some name)
      (hknown : ∃ l ∈ map.leds, l.name = name) : AreWordFates map led word []
  /-- A selector of no LED is told. -/
  | selectsNone {word : List Char} {name : String} {event : Event}
      (hname : selector? word = some name) (hunknown : ∀ l ∈ map.leds, l.name ≠ name)
      (hevent : event.Shows "unknown LED selector ignored" [("led", name)]) :
      AreWordFates map led word [.noted event]
  /-- A pause is one operation. -/
  | waits {word : List Char} {length : Span} (hpause : Span.ofLiteral? word = some length) :
      AreWordFates map led word [.emitted (.pause length)]
  /-- Each letter of a word of letters has its own fate. -/
  | letters {word : List Char} {fates : List Fate} (hletters : ∀ c ∈ word, isAlphabetic c = true)
      (hfates : List.Forall₂ (IsLetterFate led) word fates) : AreWordFates map led word fates
  /-- A word of no shape is told. -/
  | shapeless {word : List Char} {event : Event} (hoff : word ≠ ['-'])
      (hname : selector? word = none) (hpause : Span.ofLiteral? word = none)
      (hletters : ∃ c ∈ word, isAlphabetic c = false)
      (hevent : event.Shows "unrecognized token ignored" [("token", String.ofList word)]) :
      AreWordFates map led word [.noted event]

/-- The fates of words in order; each word is met with the LED that those before it leave. -/
inductive AreLineFates (map : ChannelMap) : Nat → List (List Char) → List Fate → Prop where
  | nil {i : Nat} : AreLineFates map i [] []
  | cons {i : Nat} {led : Led} {word : List Char} {rest : List (List Char)} {fates more : List Fate}
      (hled : map.led? i = some led) (hword : AreWordFates map led word fates)
      (hrest : AreLineFates map (ledAfter map i word) rest more) :
      AreLineFates map i (word :: rest) (fates ++ more)

/-! ### Shapes -/

theorem shows_unknownChannel (led : String) (letter : Char) :
    (Event.unknownChannel led letter).Shows "unknown channel ignored"
      [("led", led), ("channel", letter.toString)] := ⟨rfl, rfl, rfl⟩

theorem shows_unknownLed (name : String) :
    (Event.unknownLed name).Shows "unknown LED selector ignored" [("led", name)] := ⟨rfl, rfl, rfl⟩

theorem shows_unknownWord (word : String) :
    (Event.unknownWord word).Shows "unrecognized token ignored" [("token", word)] := ⟨rfl, rfl, rfl⟩

/-- A note is known by what it shows. -/
theorem Event.Shows.unique {event other : Event} {message : String}
    {fields : List (String × String)} (h : event.Shows message fields)
    (hother : other.Shows message fields) : event = other := by
  obtain ⟨hseverity, hmessage, hfields⟩ := h
  obtain ⟨hseverity', rfl, rfl⟩ := hother
  cases event <;> cases hseverity <;> cases other <;> cases hseverity' <;>
    simp_all [Event.message, Event.fields]

theorem selector?_eq_some_iff {word : List Char} {name : String} :
    selector? word = some name ↔ Token.ofWord word = .select name := by
  rw [Token.ofWord_eq_select_iff]
  by_cases hlast : word.getLast? = some ':'
  · obtain ⟨front, rfl⟩ := List.getLast?_eq_some_iff.1 hlast
    rw [selector?_append_colon, List.append_left_inj]
    constructor
    · intro h
      split at h
      · next hname =>
        cases h
        rw [String.toList_ofList]
        exact ⟨rfl, hname⟩
      · cases h
    · rintro ⟨rfl, hname⟩
      rw [if_pos hname, String.ofList_toList]
  · rw [selector?_of_getLast?_ne hlast]
    constructor
    · intro h
      cases h
    · rintro ⟨rfl, -⟩
      exact absurd List.getLast?_concat hlast

/-- A word that is read as a pause is a pause. -/
theorem ofWord_of_ofLiteral? {word : List Char} {length : Span}
    (h : Span.ofLiteral? word = some length) : Token.ofWord word = .pause length := by
  have hlast : word.getLast? ≠ some ':' := by
    intro hcolon
    rw [ofLiteral?_of_colon_mem (List.mem_of_getLast? hcolon)] at h
    cases h
  have hdigit : startsWithDigit word = true := by
    obtain ⟨_, _, _, hform, _⟩ := exists_isPause h
    obtain ⟨digits, rfl, hne, hdigits, _⟩ := hform.digits
    obtain ⟨c, rest, rfl⟩ := List.exists_cons_of_ne_nil hne
    exact hdigits c List.mem_cons_self
  have hoff : word ≠ ['-'] := by
    rintro rfl
    exact absurd hdigit (by decide)
  unfold Token.ofWord
  rw [if_neg hoff, if_neg hlast, if_pos hdigit, h]

/-- A word of no shape is nothing but itself. -/
theorem ofWord_of_shapeless {word : List Char} (hoff : word ≠ ['-'])
    (hname : selector? word = none) (hpause : Span.ofLiteral? word = none)
    (hletters : ∃ c ∈ word, isAlphabetic c = false) :
    Token.ofWord word = .unknown (String.ofList word) := by
  have hall : word.all isAlphabetic = false := List.all_eq_false.2 (by simpa using hletters)
  unfold Token.ofWord
  rw [if_neg hoff, hpause, hall]
  by_cases hlast : word.getLast? = some ':'
  · obtain ⟨front, rfl⟩ := List.getLast?_eq_some_iff.1 hlast
    have hfront : ¬ isSelectorName front = true := by
      intro hselector
      rw [selector?_append_colon, if_pos hselector] at hname
      cases hname
    rw [if_pos hlast, List.dropLast_concat, if_neg hfront]
  · rw [if_neg hlast, if_neg Bool.false_ne_true]
    exact ite_self _

/-! ### Agreement -/

variable {map : ChannelMap} {led : Led} {i : Nat} {word : List Char} {fates : List Fate}

theorem isLetterFate_iff {c : Char} {fate : Fate} :
    IsLetterFate led c fate ↔ fate = letterFate led c := by
  unfold letterFate Draft.letterOperation
  constructor
  · intro h
    cases h with
    | on hpin hcase => rw [hpin, hcase]; rfl
    | off hpin hcase => rw [hpin, hcase]; rfl
    | skipped hpin hevent => rw [hpin, hevent.unique (shows_unknownChannel led.name c)]
  · rintro rfl
    cases hpin : led.pin? c with
    | none => exact .skipped hpin (shows_unknownChannel led.name c)
    | some pin =>
      cases hcase : c.isUpper with
      | true => exact .on hpin hcase
      | false => exact .off hpin hcase

/-- The letters of a word have one list of fates. -/
theorem forall₂_isLetterFate_iff :
    List.Forall₂ (IsLetterFate led) word fates ↔ fates = word.map (letterFate led) := by
  have hrelation : IsLetterFate led = fun c fate => letterFate led c = fate := by
    funext c fate
    exact propext (isLetterFate_iff.trans eq_comm)
  rw [hrelation, ← List.forall₂_map_left_iff, List.forall₂_eq_eq_eq, eq_comm]

/-- There is a rule for every word. -/
theorem exists_areWordFates (map : ChannelMap) (led : Led) (word : List Char) :
    ∃ fates, AreWordFates map led word fates := by
  by_cases hoff : word = ['-']
  · rw [hoff]
    exact ⟨_, .allOff⟩
  cases hname : selector? word with
  | some name =>
    by_cases hknown : ∃ l ∈ map.leds, l.name = name
    · exact ⟨_, .selects hname hknown⟩
    · have hunknown : ∀ l ∈ map.leds, l.name ≠ name := fun l hl heq => hknown ⟨l, hl, heq⟩
      exact ⟨_, .selectsNone hname hunknown (shows_unknownLed name)⟩
  | none =>
    cases hpause : Span.ofLiteral? word with
    | some length => exact ⟨_, .waits hpause⟩
    | none =>
      by_cases hletters : ∀ c ∈ word, isAlphabetic c = true
      · exact ⟨_, .letters hletters (forall₂_isLetterFate_iff.2 rfl)⟩
      · have hother : ∃ c ∈ word, isAlphabetic c = false := by simpa using hletters
        exact ⟨_, .shapeless hoff hname hpause hother (shows_unknownWord _)⟩

/-- The rules leave the fates of the word's token. -/
theorem AreWordFates.eq (h : AreWordFates map led word fates) (hled : map.led? i = some led) :
    fates = tokenFates map i (.ofWord word) := by
  cases h with
  | allOff =>
    show _ = tokenFates map i .allOff
    simp only [tokenFates, hled]
  | @selects _ name hname hknown =>
    rw [selector?_eq_some_iff.1 hname]
    obtain ⟨l, hl, hl_name⟩ := hknown
    cases hfind : map.find? name with
    | none => exact absurd hl_name (ChannelMap.find?_eq_none_iff.1 hfind l hl)
    | some j => simp only [tokenFates, hfind]
  | selectsNone hname hunknown hevent =>
    rw [selector?_eq_some_iff.1 hname, hevent.unique (shows_unknownLed _)]
    simp only [tokenFates, ChannelMap.find?_eq_none_iff.2 hunknown]
  | waits hpause =>
    rw [ofWord_of_ofLiteral? hpause]
    rfl
  | letters hletters hfates =>
    rw [ofWord_of_isAlphabetic hletters, forall₂_isLetterFate_iff.1 hfates]
    simp only [tokenFates, hled]
  | shapeless hoff hname hpause hletters hevent =>
    rw [ofWord_of_shapeless hoff hname hpause hletters, hevent.unique (shows_unknownWord _)]
    rfl

theorem areWordFates_iff (hled : map.led? i = some led) :
    AreWordFates map led word fates ↔ fates = tokenFates map i (.ofWord word) := by
  refine ⟨fun h => h.eq hled, ?_⟩
  rintro rfl
  obtain ⟨fates, hfates⟩ := exists_areWordFates map led word
  rw [← hfates.eq hled]
  exact hfates

/-- With an LED selected, the words of a line have one list of fates. -/
theorem areLineFates_iff {words : List (List Char)} (hled : map.led? i = some led) :
    AreLineFates map i words fates ↔ fates = lineFates map i (words.map Token.ofWord) := by
  induction words generalizing i led fates with
  | nil =>
    constructor
    · intro h
      cases h
      rfl
    · rintro rfl
      exact .nil
  | cons word rest ih =>
    -- a selector leaves an LED selected
    obtain ⟨led', hled'⟩ : ∃ led', map.led? (ledAfter map i word) = some led' := by
      rw [← tokenLed_ofWord]
      exact led?_lineLed hled [.ofWord word]
    rw [List.map_cons, lineFates, tokenLed_ofWord]
    constructor
    · intro h
      cases h with
      | cons hfound hword hrest => rw [hword.eq hfound, (ih hled').1 hrest]
    · rintro rfl
      exact .cons hled ((areWordFates_iff hled).2 rfl) ((ih hled').2 rfl)

/-! ### Room -/

/-- The notes that still find a place are those before the first operation too many. -/
theorem Fate.exists_first_excess {room : Nat} (h : room < (operations fates).length) :
    ∃ before op after, fates = before ++ .emitted op :: after ∧
      (operations before).length = room ∧ eventsWithin room fates = events before := by
  induction fates generalizing room with
  | nil => cases h
  | cons fate rest ih =>
    cases fate with
    | noted event =>
      obtain ⟨before, op, after, hrest, hroom, hevents⟩ := ih h
      refine ⟨.noted event :: before, op, after, ?_, hroom, ?_⟩
      · rw [hrest, List.cons_append]
      · rw [eventsWithin, hevents, events_noted]
    | emitted op =>
      cases room with
      | zero => exact ⟨[], op, rest, rfl, rfl, rfl⟩
      | succ room =>
        have hroom : room < (operations rest).length := Nat.lt_of_succ_lt_succ h
        obtain ⟨before, op', after, hrest, hlength, hevents⟩ := ih hroom
        refine ⟨.emitted op :: before, op', after, ?_, ?_, ?_⟩
        · rw [hrest, List.cons_append]
        · rw [operations_emitted, List.length_cons, hlength]
        · rw [eventsWithin, hevents, events_emitted]

/-- **Every word and every letter has its fate.** A line is read with an LED of the map selected.
    One list of fates satisfies the rules for it, and no other does: a letter of a word of letters
    adds an operation or is told as no channel of the LED that is selected then, one or the other; a
    word adds what it asks for, or is told as a selector of no LED or as a word of no shape. The
    line is accepted exactly when at most 999 operations are among the fates. Then its notes are
    those among the fates, in order, and so are its operations. If it is rejected, its notes are
    those that come before the 1000th operation. -/
theorem notes_tell_fates (line : String) (hplace : i < map.leds.length) :
    let c := compilation line map i
    ∃ fates, (∀ other, AreLineFates map i (words line.toList) other ↔ other = fates) ∧
      ((∃ compiled, c.result = .ok compiled) ↔ (Fate.operations fates).length ≤ 999) ∧
      (∀ compiled, c.result = .ok compiled → c.notes = Fate.events fates ∧
        compiled.sequence.operations = Fate.operations fates ++ [.rewind]) ∧
      (∀ error, c.result = .error error →
        ∃ before op after, fates = before ++ .emitted op :: after ∧
          (Fate.operations before).length = 999 ∧ c.notes = Fate.events before) := by
  intro c
  let fates := lineFates map i (tokens line)
  have hled : map.led? i = some map.leds[i] := List.getElem?_eq_getElem hplace
  have hops : .rewind ∉ Fate.operations fates := rewind_notMem_lineFates map i (tokens line)
  have hc : c = if (Fate.operations fates).length < capacity then
      { notes := Fate.events fates
        result := .ok
          { sequence := .ofList (Fate.operations fates), led := lineLed map i (tokens line) } }
      else
        { notes := Fate.eventsWithin (capacity - 1) fates
          result := .error (.tooLong capacity) } := compilation_eq line map i
  have hcapacity : capacity = 1000 := rfl
  refine ⟨fates, fun other => areLineFates_iff hled, ?_⟩
  rw [hc]
  by_cases hroom : (Fate.operations fates).length < capacity
  · rw [if_pos hroom]
    refine ⟨⟨fun _ => by omega, fun _ => ⟨_, rfl⟩⟩, ?_, ?_⟩
    · intro compiled hcompiled
      cases hcompiled
      exact ⟨rfl, by rw [Sequence.operations, Sequence.body_ofList hops hroom]⟩
    · intro error herror
      cases herror
  · rw [if_neg hroom]
    refine ⟨⟨?_, fun _ => by omega⟩, ?_, ?_⟩
    · rintro ⟨compiled, hcompiled⟩
      cases hcompiled
    · intro compiled hcompiled
      cases hcompiled
    · intro error _
      have hexcess : capacity - 1 < (Fate.operations fates).length := by omega
      exact Fate.exists_first_excess hexcess

/-- One letter of each word is no channel of the LED that is selected then, the number is too large,
    and the word with two colons has no shape. -/
theorem notes_tell_fates_duo :
    let line := "Rx C: B: éG 99999999999999999999 a:b: 7s"
    0 < duo.leds.length ∧ ∃ fates, AreLineFates duo 0 (words line.toList) fates ∧
      Fate.operations fates = [.on ⟨1⟩, .on ⟨2⟩, .pause { seconds := 7, nanos := 0 }] ∧
      Fate.events fates = [.unknownChannel "A" 'x', .unknownLed "C", .unknownChannel "B" 'é',
        .unknownWord "99999999999999999999", .unknownWord "a:b:"] := by
  intro line
  have hplace : 0 < duo.leds.length := by decide
  let sequence : Sequence := .ofList [.on ⟨1⟩, .on ⟨2⟩, .pause { seconds := 7, nanos := 0 }]
  have hresult : (compilation line duo 0).result = .ok { sequence, led := 1 } := by
    decide +kernel
  have hnotes : (compilation line duo 0).notes = [.unknownChannel "A" 'x', .unknownLed "C",
      .unknownChannel "B" 'é', .unknownWord "99999999999999999999", .unknownWord "a:b:"] := by
    decide +kernel
  obtain ⟨fates, hfates, _, haccepted, _⟩ := notes_tell_fates line hplace
  obtain ⟨hevents, hoperations⟩ := haccepted _ hresult
  refine ⟨hplace, fates, (hfates fates).2 rfl, ?_, ?_⟩
  · exact (List.append_cancel_right hoperations).symm
  · rw [← hevents, hnotes]

end LedSequencer
