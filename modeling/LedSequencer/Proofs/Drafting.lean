import LedSequencer.Pattern.Compiler
import LedSequencer.Proofs.Pushes

/-! # Drafts as runs of fates

  Working through a line mixes three things: operations, notes and the selected LED.
  Here they are taken apart. Every letter and every word has a list of *fates*, each
  an operation or a note, that depends on nothing but the selected LED; a draft only
  takes the fates in, one after the other, until an operation finds no place.
  `compilation_eq` says what becomes of a line in these terms.
-/

namespace LedSequencer

/-! ### Fates -/

/-- What becomes of a letter or a word: it adds an operation, or a note tells that it was
    skipped. -/
inductive Fate where
  /-- An operation is added. -/
  | emitted (op : Operation)
  /-- A note is left. -/
  | noted (event : Event)
deriving DecidableEq

namespace Fate

/-- The operation of a fate. -/
def operation? : Fate → Option Operation
  | .emitted op => some op
  | .noted _ => none

/-- The note of a fate. -/
def event? : Fate → Option Event
  | .emitted _ => none
  | .noted event => some event

/-- The operations among fates, in order. -/
def operations (fates : List Fate) : List Operation := fates.filterMap operation?

/-- The notes among fates, in order. -/
def events (fates : List Fate) : List Event := fates.filterMap event?

/-- The notes among fates that come before the first operation too many, when so many more
    operations find a place. -/
def eventsWithin : Nat → List Fate → List Event
  | _, [] => []
  | room, .noted event :: rest => event :: eventsWithin room rest
  | 0, .emitted _ :: _ => []
  | room + 1, .emitted _ :: rest => eventsWithin room rest

@[simp] theorem operations_nil : operations [] = [] := rfl

@[simp] theorem operations_emitted (op : Operation) (rest : List Fate) :
    operations (.emitted op :: rest) = op :: operations rest := rfl

@[simp] theorem operations_noted (event : Event) (rest : List Fate) :
    operations (.noted event :: rest) = operations rest := rfl

@[simp] theorem events_nil : events [] = [] := rfl

@[simp] theorem events_emitted (op : Operation) (rest : List Fate) :
    events (.emitted op :: rest) = events rest := rfl

@[simp] theorem events_noted (event : Event) (rest : List Fate) :
    events (.noted event :: rest) = event :: events rest := rfl

theorem operations_append (fates more : List Fate) :
    operations (fates ++ more) = operations fates ++ operations more :=
  List.filterMap_append

end Fate

/-- The fate of a letter with an LED selected. -/
def letterFate (led : Led) (c : Char) : Fate :=
  match led.pin? c with
  | some pin => .emitted (Draft.letterOperation c pin)
  | none => .noted (.unknownChannel led.name c)

/-- The fates of a token with the LED at the given place selected. -/
def tokenFates (map : ChannelMap) (led : Nat) : Token → List Fate
  | .select name =>
    match map.find? name with
    | some _ => []
    | none => [.noted (.unknownLed name)]
  | .pause length => [.emitted (.pause length)]
  | .channels letters =>
    match map.led? led with
    | some led => letters.map (letterFate led)
    | none => []
  | .allOff =>
    match map.led? led with
    | some led => led.pins.map fun pin => .emitted (.off pin)
    | none => []
  | .unknown word => [.noted (.unknownWord word)]

/-- The place that is selected after a token. -/
def tokenLed (map : ChannelMap) (led : Nat) : Token → Nat
  | .select name => (map.find? name).getD led
  | _ => led

/-- The fates of tokens in order; each token is met with the LED that those before it leave. -/
def lineFates (map : ChannelMap) : Nat → List Token → List Fate
  | _, [] => []
  | led, token :: rest => tokenFates map led token ++ lineFates map (tokenLed map led token) rest

/-- The place that is selected after tokens in order. -/
def lineLed (map : ChannelMap) (led : Nat) (tokens : List Token) : Nat :=
  tokens.foldl (tokenLed map) led

theorem letterFate_ne_rewind (led : Led) (c : Char) :
    (letterFate led c).operation? ≠ some .rewind := by
  unfold letterFate
  cases led.pin? c with
  | none => simp [Fate.operation?]
  | some pin =>
    show some (Draft.letterOperation c pin) ≠ some .rewind
    unfold Draft.letterOperation
    split <;> simp

theorem rewind_notMem_tokenFates (map : ChannelMap) (led : Nat) (token : Token) :
    .rewind ∉ Fate.operations (tokenFates map led token) := by
  cases token with
  | select name => cases h : map.find? name <;> simp [tokenFates, h]
  | pause length => simp [tokenFates]
  | channels letters =>
    cases h : map.led? led with
    | none => simp [tokenFates, h]
    | some l =>
      simp only [tokenFates, h, Fate.operations, List.mem_filterMap, List.mem_map, not_exists,
        not_and]
      rintro _ ⟨c, _, rfl⟩
      exact letterFate_ne_rewind l c
  | allOff =>
    cases h : map.led? led with
    | none => simp [tokenFates, h]
    | some l => simp [tokenFates, h, Fate.operations, Fate.operation?]
  | unknown word => simp [tokenFates]

theorem rewind_notMem_lineFates (map : ChannelMap) (led : Nat) (tokens : List Token) :
    .rewind ∉ Fate.operations (lineFates map led tokens) := by
  induction tokens generalizing led with
  | nil => simp [lineFates]
  | cons token rest ih =>
    rw [lineFates, Fate.operations_append, List.mem_append, not_or]
    exact ⟨rewind_notMem_tokenFates map led token, ih _⟩

/-! ### Drafts that take fates in -/

namespace Draft

/-- Takes a fate in. -/
def meet (d : Draft) : Fate → Drafting Draft
  | .emitted op => d.push op
  | .noted event => .ok (d.note event)

/-- Selects the LED at a place. -/
def select (led : Nat) (d : Draft) : Draft := { d with led }

theorem letter_eq_meet (led : Led) (d : Draft) (c : Char) :
    d.letter led c = d.meet (letterFate led c) := by
  unfold letter letterFate
  cases led.pin? c <;> rfl

/-- A token is a change of the selected LED and a run of fates. -/
theorem token_eq_foldlM (map : ChannelMap) (d : Draft) (t : Token) :
    d.token map t = (tokenFates map d.led t).foldlM meet (d.select (tokenLed map d.led t)) := by
  cases t with
  | select name => cases h : map.find? name <;> simp only [token, tokenFates, tokenLed, h] <;> rfl
  | pause length =>
    simp only [token, tokenFates, tokenLed, List.foldlM_cons, List.foldlM_nil, bind_pure]
    rfl
  | channels letters =>
    cases h : map.led? d.led with
    | none => simp only [token, tokenFates, tokenLed, h]; rfl
    | some led =>
      simp only [token, tokenFates, tokenLed, h, List.foldlM_map, ← letter_eq_meet]
      rfl
  | allOff =>
    cases h : map.led? d.led with
    | none => simp only [token, tokenFates, tokenLed, h]; rfl
    | some led =>
      simp only [token, tokenFates, tokenLed, h, List.foldlM_map]
      rfl
  | unknown word => rfl

theorem meet_select (led : Nat) (d : Draft) (fate : Fate) :
    (d.select led).meet fate = (d.meet fate).map (select led) := by
  cases fate with
  | emitted op =>
    unfold meet push
    simp only [select]
    cases d.sequence.push op <;> rfl
  | noted event => rfl

/-- Fates do not look at the selected LED. -/
theorem foldlM_meet_select (led : Nat) (fates : List Fate) (d : Draft) :
    fates.foldlM meet (d.select led) = (fates.foldlM meet d).map (select led) := by
  induction fates generalizing d with
  | nil => rfl
  | cons fate rest ih =>
    rw [List.foldlM_cons, List.foldlM_cons, meet_select]
    cases d.meet fate with
    | error notes => rfl
    | ok next => exact ih next

/-- A line is a run of fates, after which the LED of the last selector is selected. -/
theorem foldlM_token (map : ChannelMap) (tokens : List Token) (d : Draft) :
    tokens.foldlM (token map) d =
      ((lineFates map d.led tokens).foldlM meet d).map (select (lineLed map d.led tokens)) := by
  induction tokens generalizing d with
  | nil => rfl
  | cons t rest ih =>
    -- the selection of the first token can wait until its fates have been taken in
    rw [List.foldlM_cons, token_eq_foldlM, foldlM_meet_select, lineFates, List.foldlM_append]
    cases (tokenFates map d.led t).foldlM meet d with
    | error notes => rfl
    | ok next =>
      show rest.foldlM (token map) (next.select (tokenLed map d.led t)) = _
      rw [ih, show (next.select (tokenLed map d.led t)).led = tokenLed map d.led t from rfl,
        foldlM_meet_select]
      show ((List.foldlM meet next _).map _).map _ = (List.foldlM meet next _).map _
      cases (lineFates map (tokenLed map d.led t) rest).foldlM meet next <;> rfl

/-- A draft that has taken in all fates. -/
def after (d : Draft) (fates : List Fate) : Draft :=
  { d with
    sequence := d.sequence.extend (Fate.operations fates)
    notes := d.notes ++ (Fate.events fates).toArray }

/-- A run of fates ends well when all its operations find a place. Otherwise it ends at the first
    one that does not, and of the notes those before it are left. -/
theorem foldlM_meet {fates : List Fate} (hfates : .rewind ∉ Fate.operations fates) (d : Draft) :
    fates.foldlM meet d =
      if d.sequence.length + (Fate.operations fates).length ≤ capacity then .ok (d.after fates)
      else .error (d.notes ++
        (Fate.eventsWithin (capacity - d.sequence.length) fates).toArray) := by
  induction fates generalizing d with
  | nil =>
    rw [if_pos (by simpa using d.sequence.length_le)]
    simp [after, pure, Except.pure]
  | cons fate rest ih =>
    rw [List.foldlM_cons]
    cases fate with
    | noted event =>
      -- a note takes no place
      show rest.foldlM meet (d.note event) = _
      rw [ih (by simpa using hfates)]
      have hpush (l : List Event) :
          d.notes.push event ++ l.toArray = d.notes ++ (event :: l).toArray := by
        simp
      simp only [after, note, Fate.eventsWithin, Fate.operations_noted, Fate.events_noted, hpush]
      rfl
    | emitted op =>
      simp only [Fate.operations_emitted, List.mem_cons, not_or] at hfates
      have hop : op ≠ .rewind := fun h => hfates.1 h.symm
      by_cases hroom : d.sequence.length < capacity
      · -- the operation finds a place, and one place less is left for the rest
        obtain ⟨s, hs, hbody⟩ := Sequence.push_of_lt hop hroom
        have hlength : s.length = d.sequence.length + 1 := by simp [Sequence.length, hbody]
        have hmeet : d.meet (.emitted op) = .ok { d with sequence := s } := by
          simp only [meet, push, hs]
        have hleft : capacity - d.sequence.length = capacity - s.length + 1 := by omega
        rw [hmeet]
        show rest.foldlM meet { d with sequence := s } = _
        rw [ih hfates.2, hleft]
        simp only [hlength, after, Fate.operations_emitted, Fate.events_emitted,
          Fate.eventsWithin, List.length_cons, Sequence.extend_cons_of_push hs]
        congr 2
        omega
      · -- the operation is the first one too many
        have hfull : capacity ≤ d.sequence.length := Nat.le_of_not_lt hroom
        have hmeet : d.meet (.emitted op) = .error d.notes := by
          simp only [meet, push, Sequence.push_of_le hop hfull]
        have hleft : capacity - d.sequence.length = 0 := by omega
        rw [hmeet, hleft, if_neg (by simp only [Fate.operations_emitted, List.length_cons]; omega)]
        simp [Fate.eventsWithin, bind, Except.bind]

end Draft

/-! ### Lines -/

/-- What becomes of a line: with at most 999 operations it is accepted, with all its notes; with
    more it is rejected, and the notes are those before the first operation too many. -/
theorem compilation_eq (line : String) (map : ChannelMap) (led : Nat) :
    compilation line map led =
      let fates := lineFates map led (tokens line)
      if (Fate.operations fates).length < capacity then
        { notes := Fate.events fates
          result := .ok
            { sequence := .ofList (Fate.operations fates)
              led := lineLed map led (tokens line) } }
      else
        { notes := Fate.eventsWithin (capacity - 1) fates
          result := .error (.tooLong capacity) } := by
  have hfates := rewind_notMem_lineFates map led (tokens line)
  unfold compilation
  simp only
  rw [Draft.foldlM_token, Draft.foldlM_meet hfates]
  -- a draft starts with the `rewind` in place
  have hidle : Sequence.idle.length = 1 := rfl
  simp only [hidle]
  by_cases h : (Fate.operations (lineFates map led (tokens line))).length < capacity
  · rw [if_pos h, if_pos (by omega)]
    simp [Except.map, Draft.select, Draft.after, Sequence.ofList, Sequence.extend]
  · rw [if_neg h, if_neg (by omega)]
    simp [Except.map, CompileError.ofSequenceError]

end LedSequencer
