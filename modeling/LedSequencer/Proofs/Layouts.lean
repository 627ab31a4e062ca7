import Mathlib
import LedSequencer.ChannelMap.Validation

/-! # Layouts

  A configuration in its plainest form has a line `[name]` for each LED and a line
  `c = n` for each channel, with blank lines and comments in between. Such a layout is
  read back line by line (`lines?_textOf`), and what it says is the document of the LEDs
  (`read?_layout`).

  * **LEDs on paper**: letters may be written in either case.
  * **Lines**: their texts, and which of them say something.
  * **Keys, pins and line ends**: what each reader takes off the front of a line.
  * **Sections**: from the lines that say something to the document.
-/

namespace LedSequencer

/-! ### LEDs on paper -/

/-- A channel as a configuration writes it. -/
structure WrittenChannel where
  /-- The letter, in either case. -/
  letter : Char
  /-- The pin. -/
  pin : Pin
  /-- Only ASCII letters name channels. -/
  letter_isAlpha : letter.isAlpha = true := by decide

/-- An LED as a configuration writes it. -/
structure WrittenLed where
  /-- The name. -/
  name : String
  /-- The channels in order. -/
  channels : List WrittenChannel

/-- The channel that is meant has the letter in lower case. -/
def WrittenChannel.channel (c : WrittenChannel) : Channel where
  letter := c.letter.toLower
  pin := c.pin
  letter_isLower := (Char.isLower_toLower_eq_isAlpha c.letter).trans c.letter_isAlpha

/-- The LED that is meant. -/
def WrittenLed.led (l : WrittenLed) : Led where
  name := l.name
  channels := l.channels.map WrittenChannel.channel

/-- A name that needs no quotes: ASCII letters, digits, underscores and hyphens, at least one. -/
def IsBareName (name : String) : Prop :=
  name ≠ "" ∧ ∀ c ∈ name.toList, c.isAlpha = true ∨ c.isDigit = true ∨ c = '_' ∨ c = '-'

instance : DecidablePred IsBareName := fun name =>
  @instDecidableAnd (name ≠ "") _ _ (List.decidableBAll _ name.toList)

/-! ### Lines -/

/-- A line of a configuration. -/
inductive ConfigLine where
  /-- Nothing but blanks. -/
  | blank (gap : String)
  /-- A comment. -/
  | comment (remark : String)
  /-- The name of an LED. -/
  | header (name : String)
  /-- A channel. -/
  | entry (channel : WrittenChannel)

/-- What a document says of a channel. -/
def WrittenChannel.pair (c : WrittenChannel) : Document.Pair where
  path := []
  key := String.singleton c.letter
  datum := .integer c.pin.number.toNat

namespace ConfigLine

/-- The text of a line, without a line end. -/
def text : ConfigLine → String
  | .blank gap => gap
  | .comment remark => "#" ++ remark
  | .header name => "[" ++ name ++ "]"
  | .entry channel => String.singleton channel.letter ++ " = " ++ channel.pin.text

/-- Whether a line only fills space. -/
def isFiller : ConfigLine → Bool
  | .blank _ | .comment _ => true
  | .header _ | .entry _ => false

/-- What it takes for a line to be read as it is meant: the blanks are spaces and tabs, a comment
    has no control characters other than tabs, a name needs no quotes, and a pin is one of the
    board. -/
def IsPlain : ConfigLine → Prop
  | .blank gap => ∀ c ∈ gap.toList, c = ' ' ∨ c = '\t'
  | .comment remark => ∀ c ∈ remark.toList, c = '\t' ∨ (0x20 ≤ c.toNat ∧ c.toNat ≠ 0x7F)
  | .header name => IsBareName name
  | .entry channel => channel.pin.number.toNat ≤ Pin.highest

instance : DecidablePred IsPlain
  | .blank gap => List.decidableBAll _ gap.toList
  | .comment remark => List.decidableBAll _ remark.toList
  | .header name => inferInstanceAs (Decidable (IsBareName name))
  | .entry channel => inferInstanceAs (Decidable (channel.pin.number.toNat ≤ Pin.highest))

/-- What a line says. -/
def line? : ConfigLine → Option Document.Line
  | .blank _ | .comment _ => none
  | .header name => some (.header false [] name)
  | .entry c => some (.pair c.pair)

/-- The text of lines in order, with line feeds between them. -/
def textOf (lines : List ConfigLine) : String := "\n".intercalate (lines.map text)

end ConfigLine

/-- The lines of an LED: its name, and then its channels. -/
def WrittenLed.lines (l : WrittenLed) : List ConfigLine :=
  .header l.name :: l.channels.map .entry

/-- Lines that are those of LEDs in order, but for fillers. -/
structure LaysOut (lines : List ConfigLine) (leds : List WrittenLed) : Prop where
  /-- Leaving the fillers out, the lines of the LEDs are left. -/
  filter_eq : (lines.filter fun line => !line.isFiller) = leds.flatMap WrittenLed.lines
  /-- The fillers are nothing but blanks and comments. -/
  fillers : ∀ line ∈ lines, line.isFiller = true → line.IsPlain

/-! ### Keys, pins and line ends -/

namespace Document

theorem isBareKeyChar_of {c : Char}
    (h : c.isAlpha = true ∨ c.isDigit = true ∨ c = '_' ∨ c = '-') : isBareKeyChar c = true := by
  unfold isBareKeyChar Char.isAlphanum
  rcases h with h | h | rfl | rfl <;> simp_all

theorem isGap_of_isBareKeyChar {c : Char} (h : isBareKeyChar c = true) : isGap c = false := by
  by_contra hgap
  rw [Bool.not_eq_false, isGap, Bool.or_eq_true, decide_eq_true_eq, decide_eq_true_eq] at hgap
  rcases hgap with rfl | rfl <;> cases h

/-- Blanks at the front are skipped, up to something that is none. -/
theorem skipGap_append {gap after : List Char} (hgap : ∀ c ∈ gap, c = ' ' ∨ c = '\t')
    (hafter : ∀ c ∈ after.head?, isGap c = false) : skipGap (gap ++ after) = after := by
  have hblank : ∀ c ∈ gap, isGap c = true := by
    intro c hc
    rcases hgap c hc with rfl | rfl <;> rfl
  unfold skipGap
  rw [List.dropWhile_append_of_pos hblank]
  cases after with
  | nil => rfl
  | cons c rest => exact List.dropWhile_cons_of_neg (by simp [hafter c rfl])

/-- Nothing is skipped in front of something else than blanks. -/
theorem skipGap_of_run {run after : List Char} (hne : run ≠ [])
    (hrun : ∀ c ∈ run, isGap c = false) : skipGap (run ++ after) = run ++ after := by
  cases run with
  | nil => exact absurd rfl hne
  | cons c more => exact List.dropWhile_cons_of_neg (by simp [hrun c List.mem_cons_self])

/-- A run of characters of one kind is taken off the front, up to something of another kind. -/
theorem takeWhile_run {p : Char → Bool} {run after : List Char} (hrun : ∀ c ∈ run, p c = true)
    (hafter : ∀ c ∈ after.head?, p c = false) :
    (run ++ after).takeWhile p = run ∧ (run ++ after).dropWhile p = after := by
  rw [List.takeWhile_append_of_pos hrun, List.dropWhile_append_of_pos hrun]
  cases after with
  | nil => simp
  | cons c rest => simp [hafter c rfl]

theorem keyPart?_bare {name after : List Char} (hne : name ≠ [])
    (hname : ∀ c ∈ name, isBareKeyChar c = true)
    (hafter : ∀ c ∈ after.head?, isBareKeyChar c = false) :
    keyPart? (name ++ after) = some (String.ofList name, after) := by
  obtain ⟨htake, hdrop⟩ := takeWhile_run hname hafter
  unfold keyPart?
  -- a bare name does not start with a quote of either kind
  split
  · next rest hquote =>
    cases name with
    | nil => exact absurd rfl hne
    | cons c more =>
      have hc := hname c List.mem_cons_self
      cases hquote
      cases hc
  · next rest hquote =>
    cases name with
    | nil => exact absurd rfl hne
    | cons c more =>
      have hc := hname c List.mem_cons_self
      cases hquote
      cases hc
  · rw [htake, hdrop, if_neg hne]

/-- A bare name is read as a key of one part, and the blanks after it are skipped. -/
theorem key?_bare {name rest after : List Char} {stop : Char} (hne : name ≠ [])
    (hname : ∀ c ∈ name, isBareKeyChar c = true)
    (hrest : ∀ c ∈ rest.head?, isBareKeyChar c = false) (hskip : skipGap rest = stop :: after)
    (hstop : stop ≠ '.') :
    key? (name ++ rest) = some (([], String.ofList name), stop :: after) := by
  have hfront : skipGap (name ++ rest) = name ++ rest :=
    skipGap_of_run hne fun c hc => isGap_of_isBareKeyChar (hname c hc)
  have hparts : keyParts? nestingLimit (name ++ rest) =
      some ([String.ofList name], stop :: after) := by
    unfold nestingLimit keyParts?
    rw [hfront, keyPart?_bare hne hname hrest]
    simp only [Option.bind_eq_bind, Option.bind_some, hskip]
    split
    · next hpoint =>
      cases hpoint
      exact absurd rfl hstop
    · rfl
  unfold key?
  rw [hparts]
  rfl

/-- What starts like a key is read as a pair. -/
theorem line?_of_isBareKeyChar {c : Char} {rest : List Char} (h : isBareKeyChar c = true) :
    line? (c :: rest) = (pair? (value? nestingLimit) (c :: rest)).map fun read =>
      (some (.pair read.1), read.2) := by
  unfold line?
  -- the lines of other kinds start with characters that no bare name has
  split
  · next hopen => cases hopen
  · next hopen =>
    cases hopen
    cases h
  · next hopen =>
    cases hopen
    cases h
  · next hopen =>
    cases hopen
    cases h
  · next hopen =>
    cases hopen
    cases h
  · cases pair? (value? nestingLimit) (c :: rest) <;> rfl

/-- The digits of a pin of the board write its number, and nothing else that a value may be. -/
theorem digits_of_pin {pin : Pin} (hpin : pin.number.toNat ≤ Pin.highest) :
    (∀ c ∈ pin.text.toList, c.isDigit = true) ∧ pin.text.toList ≠ [] ∧
      isDate pin.text.toList = false ∧
      integer? pin.text.toList = some (pin.number.toNat : Int) := by
  have hall : ∀ n ≤ Pin.highest,
      (Nat.repr n).toList.all Char.isDigit = true ∧ (Nat.repr n).toList ≠ [] ∧
        isDate (Nat.repr n).toList = false ∧
        integer? (Nat.repr n).toList = some (n : Int) := by decide +kernel
  obtain ⟨hdigits, hrest⟩ := hall pin.number.toNat hpin
  exact ⟨List.all_eq_true.1 hdigits, hrest⟩

/-- A pin does not start with a blank. -/
theorem skipGap_pin {pin : Pin} (hpin : pin.number.toNat ≤ Pin.highest) (after : List Char) :
    skipGap (' ' :: (pin.text.toList ++ after)) = pin.text.toList ++ after := by
  obtain ⟨hdigits, hne, _⟩ := digits_of_pin hpin
  apply skipGap_of_run hne
  intro c hc
  exact isGap_of_isBareKeyChar (isBareKeyChar_of (.inr (.inl (hdigits c hc))))

/-- A pin is read as its number, up to the end of the line. -/
theorem value?_pin {pin : Pin} (hpin : pin.number.toNat ≤ Pin.highest) {after : List Char}
    (hafter : ∀ c ∈ after.head?, c = '\n') :
    value? nestingLimit (pin.text.toList ++ after) =
      some (.integer pin.number.toNat, after) := by
  obtain ⟨hdigits, hne, hdate, hinteger⟩ := digits_of_pin hpin
  -- from here on, all that counts is what the digits are
  generalize pin.text.toList = word at *
  have hplain : plainValue? (word ++ after) = some (.integer pin.number.toNat, after) := by
    have hrun : ∀ c ∈ word, isPlainChar c = true := by
      intro c hc
      simp [isPlainChar, Char.isAlphanum, hdigits c hc]
    have hstop : ∀ c ∈ after.head?, isPlainChar c = false := by
      intro c hc
      rw [hafter c hc]
      rfl
    obtain ⟨htake, hdrop⟩ := takeWhile_run hrun hstop
    -- a truth value starts with a letter
    have htrue : word ≠ ['t', 'r', 'u', 'e'] := by
      rintro rfl
      cases hdigits 't' List.mem_cons_self
    have hfalse : word ≠ ['f', 'a', 'l', 's', 'e'] := by
      rintro rfl
      cases hdigits 'f' List.mem_cons_self
    unfold plainValue?
    simp only [htake, hdrop, hdate, htrue, hfalse, if_false, hinteger]
  cases word with
  | nil => exact absurd rfl hne
  | cons c more =>
    have hc := hdigits c List.mem_cons_self
    rw [List.cons_append] at hplain ⊢
    unfold nestingLimit value?
    -- texts, arrays and tables are opened by something else than a digit
    split
    · next hopen =>
      cases hopen
      cases hc
    · next hopen =>
      cases hopen
      cases hc
    · next hopen =>
      cases hopen
      cases hc
    · next hopen =>
      cases hopen
      cases hc
    · exact hplain

end Document

namespace ConfigLine

open Document

/-- What follows a line in a text: nothing or a line feed. -/
def IsLineEnd (after : List Char) : Prop := ∀ c ∈ after.head?, c = '\n'

variable {after : List Char}

theorem IsLineEnd.eq_nil_or (h : IsLineEnd after) : after = [] ∨ ∃ rest, after = '\n' :: rest := by
  cases after with
  | nil => exact .inl rfl
  | cons c rest => exact .inr ⟨rest, by rw [h c rfl]⟩

/-- A kind of characters that a line feed is not of ends before a line end. -/
theorem IsLineEnd.head {p : Char → Bool} (h : IsLineEnd after) (hp : p '\n' = false) :
    ∀ c ∈ after.head?, p c = false := by
  intro c hc
  rw [h c hc]
  exact hp

/-- Blanks are read as a line that says nothing. -/
theorem line?_blank {gap : String} (h : (blank gap).IsPlain) (hafter : IsLineEnd after) :
    Document.line? (skipGap (gap.toList ++ after)) = some (none, after) := by
  rw [skipGap_append h (hafter.head rfl)]
  rcases hafter.eq_nil_or with rfl | ⟨rest, rfl⟩ <;> rfl

/-- A comment is left for the line end, which takes all of it. -/
theorem lineEnd?_comment {remark : String} (h : (comment remark).IsPlain)
    (hafter : IsLineEnd after) :
    lineEnd? ('#' :: (remark.toList ++ after)) = lineEnd? after := by
  have hrun : ∀ c ∈ remark.toList, isCommentChar c = true := by
    intro c hc
    have hplain : c = '\t' ∨ (0x20 ≤ c.toNat ∧ c.toNat ≠ 0x7F) := h c hc
    simp only [isCommentChar, Bool.or_eq_true, Bool.and_eq_true, decide_eq_true_eq]
    rcases hplain with htab | hvisible
    · exact .inl (.inl htab)
    · omega
  have hdrop := (takeWhile_run hrun (hafter.head rfl)).2
  have hskip : skipGap ('#' :: (remark.toList ++ after)) = '#' :: (remark.toList ++ after) := rfl
  unfold lineEnd?
  rw [hskip]
  simp only [hdrop]
  rcases hafter.eq_nil_or with rfl | ⟨rest, rfl⟩ <;> rfl

/-- A name in brackets is read as the header of its section. -/
theorem line?_header {name : String} (h : (header name).IsPlain) :
    Document.line? ('[' :: (name.toList ++ ']' :: after)) =
      some (some (.header false [] name), after) := by
  obtain ⟨hne, hname⟩ := h
  have hbare : ∀ c ∈ name.toList, isBareKeyChar c = true :=
    fun c hc => isBareKeyChar_of (hname c hc)
  have hne : name.toList ≠ [] := fun hnil => hne (String.toList_eq_nil_iff.1 hnil)
  have hkey : key? (name.toList ++ ']' :: after) = some (([], name), ']' :: after) := by
    have hclose : ∀ c ∈ (']' :: after).head?, isBareKeyChar c = false := by
      rintro _ ⟨⟩
      rfl
    have hread := key?_bare hne hbare hclose rfl (by decide)
    rw [String.ofList_toList] at hread
    exact hread
  -- a name does not start with a bracket
  obtain ⟨first, more, hfirst⟩ := List.exists_cons_of_ne_nil hne
  have hbracket : first ≠ '[' := by
    rintro rfl
    cases hbare '[' (hfirst ▸ List.mem_cons_self)
  have hheader : header? ('[' :: (name.toList ++ ']' :: after)) =
      some (.header false [] name, after) := by
    unfold header?
    split
    · next rest hopen =>
      rw [hfirst] at hopen
      cases hopen
      exact absurd rfl hbracket
    · next rest hopen =>
      cases hopen
      rw [hkey]
      rfl
    · next hopen => exact absurd rfl (hopen _)
  unfold Document.line?
  simp only [hheader, Option.bind_eq_bind, Option.bind_some]

/-- A letter with a pin is read as a pair. -/
theorem line?_entry {c : WrittenChannel} (h : (entry c).IsPlain) (hafter : IsLineEnd after) :
    Document.line? (c.letter :: ' ' :: '=' :: ' ' :: (c.pin.text.toList ++ after)) =
      some ((entry c).line?, after) := by
  have hbare : isBareKeyChar c.letter = true := isBareKeyChar_of (.inl c.letter_isAlpha)
  have hkey : key? (c.letter :: ' ' :: '=' :: ' ' :: (c.pin.text.toList ++ after)) =
      some (([], String.singleton c.letter), '=' :: ' ' :: (c.pin.text.toList ++ after)) :=
    key?_bare (List.cons_ne_nil c.letter []) (by simpa using hbare) (by rintro _ ⟨⟩; rfl) rfl
      (by decide)
  have hpair : pair? (value? nestingLimit)
      (c.letter :: ' ' :: '=' :: ' ' :: (c.pin.text.toList ++ after)) =
        some (c.pair, after) := by
    unfold pair?
    rw [hkey]
    simp only [Option.bind_eq_bind, Option.bind_some]
    rw [skipGap_pin h, value?_pin h hafter]
    rfl
  rw [line?_of_isBareKeyChar hbare, hpair]
  rfl

/-- **Step.** A line and what may follow it are taken off the front of a text. -/
theorem exists_line? {l : ConfigLine} (h : l.IsPlain) (hafter : IsLineEnd after) :
    ∃ rest, Document.line? (skipGap (l.text.toList ++ after)) = some (l.line?, rest) ∧
      lineEnd? rest = lineEnd? after := by
  cases l with
  | blank gap => exact ⟨after, line?_blank h hafter, rfl⟩
  | comment remark =>
    refine ⟨'#' :: (remark.toList ++ after), ?_, lineEnd?_comment h hafter⟩
    rw [text, String.toList_append]
    rfl
  | header name =>
    -- a header takes all of its line, and so does an entry
    have htext : (header name).text.toList ++ after = '[' :: (name.toList ++ ']' :: after) := by
      simp [text]
    exact ⟨after, htext ▸ line?_header h, rfl⟩
  | entry c =>
    have htext : (entry c).text.toList ++ after =
        c.letter :: ' ' :: '=' :: ' ' :: (c.pin.text.toList ++ after) := by
      simp [text]
    have hskip : skipGap ((entry c).text.toList ++ after) = (entry c).text.toList ++ after := by
      rw [htext]
      have hbare := isBareKeyChar_of (.inl c.letter_isAlpha)
      exact skipGap_of_run (List.cons_ne_nil c.letter [])
        (by simpa using isGap_of_isBareKeyChar hbare)
    refine ⟨after, ?_, rfl⟩
    rw [hskip, htext]
    exact line?_entry h hafter

/-- Only blanks can have no text. -/
theorem line?_of_text_eq_nil {l : ConfigLine} (h : l.text.toList = []) : l.line? = none := by
  cases l <;> simp_all [text, line?]

/-- Lines of a text are read one after the other. -/
theorem lines?_line {l : ConfigLine} (h : l.IsPlain) (hafter : IsLineEnd after) {rest : List Char}
    (hend : lineEnd? after = some rest) (hne : l.text.toList ++ after ≠ []) (bound : Nat) :
    Document.lines? (bound + 1) (l.text.toList ++ after) =
      (Document.lines? bound rest).map (l.line?.toList ++ ·) := by
  obtain ⟨left, hline, hleft⟩ := exists_line? h hafter
  rw [Document.lines?, if_neg hne, hline]
  simp only [Option.bind_eq_bind, Option.bind_some, hleft, hend]
  cases Document.lines? bound rest <;> rfl

theorem textOf_cons_cons (l next : ConfigLine) (rest : List ConfigLine) :
    (textOf (l :: next :: rest)).toList =
      l.text.toList ++ '\n' :: (textOf (next :: rest)).toList := by
  simp [textOf, String.intercalate_cons_cons]

theorem textOf_singleton (l : ConfigLine) : textOf [l] = l.text := by
  simp [textOf]

theorem lines?_nil (bound : Nat) : Document.lines? bound [] = some [] := by
  cases bound <;> simp [Document.lines?]

theorem filterMap_line?_cons (l : ConfigLine) (rest : List ConfigLine) :
    (l :: rest).filterMap line? = l.line?.toList ++ rest.filterMap line? := by
  rw [List.filterMap_eq_flatMap_toList, List.flatMap_cons, List.filterMap_eq_flatMap_toList]

/-- **Run.** The text of lines that can be read says what the lines say, in order. -/
theorem lines?_textOf {lines : List ConfigLine} (h : ∀ l ∈ lines, l.IsPlain) {bound : Nat}
    (hbound : (textOf lines).toList.length ≤ bound) :
    Document.lines? bound (textOf lines).toList = some (lines.filterMap line?) := by
  -- each line takes one of the bound, which is at least the characters that are left
  induction lines generalizing bound with
  | nil => exact lines?_nil bound
  | cons l rest ih =>
    have hplain : l.IsPlain := h l List.mem_cons_self
    cases rest with
    | nil =>
      rw [textOf_singleton] at hbound ⊢
      rw [filterMap_line?_cons, List.filterMap_nil, List.append_nil]
      -- an empty last line is not read at all
      by_cases hempty : l.text.toList = []
      · rw [hempty, lines?_nil, line?_of_text_eq_nil hempty]
        rfl
      · obtain ⟨more, rfl⟩ : ∃ more, bound = more + 1 := by
          have hpos := List.length_pos_iff.2 hempty
          exact ⟨bound - 1, by omega⟩
        have hend : IsLineEnd [] := by rintro _ ⟨⟩
        have hread := lines?_line hplain hend rfl (by rwa [List.append_nil]) more
        rw [List.append_nil] at hread
        rw [hread, lines?_nil, Option.map_some, List.append_nil]
    | cons next rest =>
      rw [textOf_cons_cons] at hbound ⊢
      rw [List.length_append, List.length_cons] at hbound
      obtain ⟨more, rfl⟩ : ∃ more, bound = more + 1 := ⟨bound - 1, by omega⟩
      rw [lines?_line hplain (by rintro _ ⟨⟩; rfl) rfl (by simp) more,
        ih (fun l hl => h l (List.mem_cons_of_mem _ hl)) (by omega), filterMap_line?_cons l]
      rfl

/-- No line starts with the mark that may open a document. -/
theorem ne_mark_of_head {l : ConfigLine} (h : l.IsPlain) (hafter : IsLineEnd after) :
    ∀ c ∈ (l.text.toList ++ after).head?, c ≠ '\uFEFF' := by
  rintro c hc rfl
  cases l with
  | blank gap =>
    cases hgap : gap.toList with
    | nil =>
      rw [text, hgap, List.nil_append] at hc
      cases hafter _ hc
    | cons first more =>
      rw [text, hgap] at hc
      obtain rfl := Option.some_inj.1 hc
      rcases h _ (hgap ▸ List.mem_cons_self) with hblank | hblank <;> cases hblank
  | comment remark => simp [text] at hc
  | header name => simp [text] at hc
  | entry channel =>
    have hletter : channel.letter = '\uFEFF' := by simpa [text] using hc
    have halpha := channel.letter_isAlpha
    rw [hletter] at halpha
    cases halpha

/-- The text of lines starts with that of the first one. -/
theorem exists_textOf_cons (l : ConfigLine) (rest : List ConfigLine) :
    ∃ after, (textOf (l :: rest)).toList = l.text.toList ++ after ∧ IsLineEnd after := by
  cases rest with
  | nil => exact ⟨[], by rw [textOf_singleton, List.append_nil], by rintro _ ⟨⟩⟩
  | cons next rest => exact ⟨_, textOf_cons_cons l next rest, by rintro _ ⟨⟩; rfl⟩

/-- Nothing in front of a text is taken for a mark. -/
theorem skipMark_textOf {lines : List ConfigLine} (h : ∀ l ∈ lines, l.IsPlain) :
    skipMark (textOf lines).toList = (textOf lines).toList := by
  cases lines with
  | nil => rfl
  | cons l rest =>
    obtain ⟨after, htext, hafter⟩ := exists_textOf_cons l rest
    unfold skipMark
    split
    · next hmark =>
      rw [htext] at hmark
      exact absurd rfl (ne_mark_of_head (h l List.mem_cons_self) hafter _ (hmark ▸ rfl))
    · rfl

end ConfigLine

/-! ### Sections -/

/-- What a document says of a channel. -/
def WrittenChannel.entry (c : WrittenChannel) : String × Datum :=
  (String.singleton c.letter, .integer c.pin.number.toNat)

/-- What a document says of an LED. -/
def WrittenLed.entry (l : WrittenLed) : String × Datum :=
  (l.name, .table (l.channels.map WrittenChannel.entry))

/-- The section of an LED. -/
def WrittenLed.section (l : WrittenLed) : Document.Section where
  isElement := false
  path := []
  key := l.name
  pairs := l.channels.map WrittenChannel.pair

/-- The table of an LED while the document is assembled. -/
def WrittenLed.node (l : WrittenLed) : String × Document.Node :=
  (l.name, .table .header (l.channels.map fun c => (c.entry.1, .value c.entry.2)))

/-- With bare names and pins of the board, every line can be read. -/
theorem LaysOut.isPlain {lines : List ConfigLine} {leds : List WrittenLed} (h : LaysOut lines leds)
    (hnames : ∀ l ∈ leds, IsBareName l.name)
    (hpins : ∀ l ∈ leds, ∀ c ∈ l.channels, c.pin.number.toNat ≤ Pin.highest) :
    ∀ line ∈ lines, line.IsPlain := by
  intro line hline
  cases hfiller : line.isFiller with
  | true => exact h.fillers line hline hfiller
  | false =>
    -- what fills no space is a line of an LED
    have hmem : line ∈ lines.filter fun line => !line.isFiller :=
      List.mem_filter.2 ⟨hline, by rw [hfiller]; rfl⟩
    rw [h.filter_eq] at hmem
    obtain ⟨l, hl, hof⟩ := List.mem_flatMap.1 hmem
    rcases List.mem_cons.1 hof with rfl | hentry
    · exact hnames l hl
    · obtain ⟨c, hc, rfl⟩ := List.mem_map.1 hentry
      exact hpins l hl c hc

/-- Fillers say nothing. -/
theorem LaysOut.filterMap_line? {lines : List ConfigLine} {leds : List WrittenLed}
    (h : LaysOut lines leds) : lines.filterMap ConfigLine.line? =
      leds.flatMap fun l =>
        .header false [] l.name :: l.channels.map (.pair ∘ WrittenChannel.pair) := by
  have hfiller : ConfigLine.line? = fun l : ConfigLine =>
      if (!l.isFiller) = true then l.line? else none := by
    funext l
    cases l <;> rfl
  rw [hfiller, ← List.filterMap_filter, h.filter_eq, List.filterMap_flatMap]
  congr 1
  funext l
  simp [WrittenLed.lines, ConfigLine.line?, List.filterMap_map, Function.comp_def]

namespace Document

/-- Pairs in front of other lines belong to the table that is open there. -/
theorem sections_pairs (pairs : List Pair) (rest : List Line) :
    sections (pairs.map .pair ++ rest) = (pairs ++ (sections rest).1, (sections rest).2) := by
  induction pairs with
  | nil => rfl
  | cons pair pairs ih => rw [List.map_cons, List.cons_append, sections, ih, List.cons_append]

/-- The lines of LEDs are cut into their sections. -/
theorem sections_leds (leds : List WrittenLed) :
    sections (leds.flatMap fun l =>
      .header false [] l.name :: l.channels.map (.pair ∘ WrittenChannel.pair)) =
        ([], leds.map WrittenLed.section) := by
  induction leds with
  | nil => rfl
  | cons l leds ih =>
    rw [List.flatMap_cons, List.cons_append, sections, ← List.map_map, sections_pairs, ih,
      List.append_nil]
    rfl

/-- Nothing is found under a name that is free. -/
theorem Entries.lookup_of_notMem {t : Entries} {key : String} (h : key ∉ t.map Prod.fst) :
    t.lookup key = none := by
  rw [List.lookup_eq_none_iff]
  intro entry hentry
  rw [bne_iff_ne]
  rintro rfl
  exact h (List.mem_map_of_mem hentry)

/-- Pairs with keys that are all different fill a table in order. -/
theorem fill_pairs {channels : List WrittenChannel} {t : Entries}
    (h : (t.map Prod.fst ++ channels.map fun c => String.singleton c.letter).Nodup) :
    Entries.fill t (channels.map WrittenChannel.pair) =
      some (t ++ channels.map fun c => (c.entry.1, .value c.entry.2)) := by
  -- the table grows by each pair, so the induction is for all tables
  induction channels generalizing t with
  | nil => simp [Entries.fill]
  | cons c rest ih =>
    have hfree : t.lookup (String.singleton c.letter) = none := by
      apply Entries.lookup_of_notMem
      intro hmem
      exact (List.nodup_append.1 h).2.2 _ hmem _ List.mem_cons_self rfl
    have hput : t.put true c.pair.key c.pair.datum c.pair.path =
        some (t ++ [(c.entry.1, .value c.entry.2)]) := by
      simp [WrittenChannel.pair, Entries.put, hfree, WrittenChannel.entry]
    have hkeys : ((t ++ [(c.entry.1, Node.value c.entry.2)]).map Prod.fst ++
        rest.map fun c => String.singleton c.letter).Nodup := by
      simpa [WrittenChannel.entry] using h
    have hrest := ih hkeys
    unfold Entries.fill at hrest ⊢
    rw [List.map_cons, List.foldlM_cons, hput, Option.bind_eq_bind, Option.bind_some, hrest]
    simp

/-- A section with a new name comes at the end. -/
theorem place_led {l : WrittenLed} {root : Entries} (hname : l.name ∉ root.map Prod.fst)
    (hletters : (l.channels.map WrittenChannel.letter).Nodup) :
    Section.place root l.section = some (root ++ [l.node]) := by
  have hkeys : (l.channels.map fun c => String.singleton c.letter).Nodup := by
    refine List.Nodup.of_map String.toList ?_
    have hinjective : Function.Injective fun c : Char => [c] := by
      intro c d hsame
      exact List.head_eq_of_cons_eq hsame
    have hsingle := hletters.map hinjective
    simpa [List.map_map, Function.comp_def] using hsingle
  have hfill : Entries.fill [] l.section.pairs =
      some (l.channels.map fun c => (c.entry.1, .value c.entry.2)) :=
    @fill_pairs l.channels [] hkeys
  have hfree : root.lookup l.section.key = none := Entries.lookup_of_notMem hname
  unfold Section.place Section.placeIn
  rw [show l.section.path = [] from rfl, Entries.within, hfree, hfill]
  rfl

/-- Sections with names that are all different are placed in order. -/
theorem place_leds {leds : List WrittenLed} {root : Entries}
    (hnames : (root.map Prod.fst ++ leds.map WrittenLed.name).Nodup)
    (hletters : ∀ l ∈ leds, (l.channels.map WrittenChannel.letter).Nodup) :
    (leds.map WrittenLed.section).foldlM Section.place root =
      some (root ++ leds.map WrittenLed.node) := by
  -- the document grows by each section
  induction leds generalizing root with
  | nil => simp
  | cons l rest ih =>
    have hname : l.name ∉ root.map Prod.fst := by
      intro hmem
      exact (List.nodup_append.1 hnames).2.2 _ hmem _ List.mem_cons_self rfl
    have hmore : ((root ++ [l.node]).map Prod.fst ++ rest.map WrittenLed.name).Nodup := by
      simpa [WrittenLed.node] using hnames
    have hrest := ih hmore fun l' hl' => hletters l' (List.mem_cons_of_mem l hl')
    rw [List.map_cons, List.foldlM_cons, place_led hname (hletters l List.mem_cons_self),
      Option.bind_eq_bind, Option.bind_some, hrest]
    simp

/-- A table whose keys and values are complete. -/
theorem entriesToData_values (entries : List (String × Datum)) :
    entriesToData (entries.map fun e => (e.1, .value e.2)) = entries := by
  induction entries with
  | nil => rw [List.map_nil, entriesToData]
  | cons e rest ih => rw [List.map_cons, entriesToData, ih, Node.toDatum]

theorem entriesToData_leds (leds : List WrittenLed) :
    entriesToData (leds.map WrittenLed.node) = leds.map WrittenLed.entry := by
  induction leds with
  | nil => rw [List.map_nil, entriesToData, List.map_nil]
  | cons l rest ih =>
    have htable : entriesToData (l.channels.map fun c => (c.entry.1, .value c.entry.2)) =
        l.channels.map WrittenChannel.entry := by
      rw [← entriesToData_values (l.channels.map WrittenChannel.entry), List.map_map]
      rfl
    rw [List.map_cons, WrittenLed.node, entriesToData, ih, Node.toDatum, htable, List.map_cons,
      WrittenLed.entry]

/-- Whole numbers are settled as they are. -/
theorem settleEntries?_channels (channels : List WrittenChannel) :
    Datum.settleEntries? (channels.map WrittenChannel.entry) =
      some (channels.map WrittenChannel.entry) := by
  induction channels with
  | nil => rw [List.map_nil, Datum.settleEntries?]
  | cons c rest ih =>
    simp only [List.map_cons, WrittenChannel.entry] at ih ⊢
    simp only [Datum.settleEntries?, Datum.settle?, ih]
    rfl

/-- No letter is the mark of a moment. -/
theorem marked?_channels (channels : List WrittenChannel) :
    marked? (channels.map WrittenChannel.entry) = none := by
  cases channels with
  | nil => rfl
  | cons c rest =>
    refine (if_neg ?_ :)
    intro hmark
    -- the mark is longer than one letter
    have hlong : momentMark.toList.length ≠ 1 := by decide
    rw [← hmark, String.toList_singleton] at hlong
    exact hlong rfl

theorem settleEntries?_leds (leds : List WrittenLed) :
    Datum.settleEntries? (leds.map WrittenLed.entry) = some (leds.map WrittenLed.entry) := by
  induction leds with
  | nil => rw [List.map_nil, Datum.settleEntries?]
  | cons l rest ih =>
    have htable : Datum.settle? l.entry.2 = some l.entry.2 := by
      rw [WrittenLed.entry, Datum.settle?, marked?_channels, settleEntries?_channels]
      rfl
    rw [List.map_cons, Datum.settleEntries?, htable, ih]
    rfl

/-- A layout is read as the document of its LEDs. -/
theorem read?_layout {lines : List ConfigLine} {leds : List WrittenLed} (h : LaysOut lines leds)
    (hplain : ∀ line ∈ lines, line.IsPlain) (hnames : (leds.map WrittenLed.name).Nodup)
    (hletters : ∀ l ∈ leds, (l.channels.map WrittenChannel.letter).Nodup) :
    read? (ConfigLine.textOf lines) = some (leds.map WrittenLed.entry) := by
  have hassembled : assemble? [] (leds.map WrittenLed.section) =
      some (leds.map WrittenLed.entry) := by
    have hplaced := @place_leds leds [] hnames hletters
    rw [List.nil_append] at hplaced
    unfold assemble?
    rw [show Entries.fill [] [] = some [] from rfl]
    simp only [Option.bind_eq_bind, Option.bind_some, hplaced, entriesToData_leds]
  have hlines := ConfigLine.lines?_textOf hplain (Nat.le_refl _)
  rw [h.filterMap_line?] at hlines
  unfold read?
  simp only [ConfigLine.skipMark_textOf hplain, hlines, Option.bind_eq_bind, Option.bind_some,
    sections_leds, hassembled, settleEntries?_leds]

end Document

end LedSequencer
