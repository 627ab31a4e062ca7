/-! # Visible text

  A text that is quoted in a complaint may hold sequences that control a terminal.
  Shown is what remains without them and without other control characters: tabs,
  line ends and form feeds stay. An escape opens a sequence, and what follows it
  tells where the sequence ends:

  - a short sequence ends with its first character from `0` to `~`, and marks from
    the blank to `/` may come before;
  - a sequence with parameters ends with a character from `@` to `~`;
  - a title goes on to the bell;
  - a string goes on to a character with the string terminator among its bytes;
  - a string for a device has a head of parameters and marks first, in which nothing
    terminates it; the head ends with a character from `@` to `~`, or with the first
    one out of order.

  A new escape opens the next sequence from anywhere, and a cancelled sequence has
  ended.
-/

namespace LedSequencer

/-- Where a character of a text stands. -/
inductive ControlState where
  /-- Outside of every sequence. -/
  | outside
  /-- After an escape. -/
  | escape
  /-- After an escape and some marks. -/
  | marks
  /-- After the opening bracket of a sequence with parameters. -/
  | parameters
  /-- In a title. -/
  | title
  /-- Where the head of a string for a device starts. -/
  | deviceHead
  /-- After parameters in the head of a string for a device. -/
  | deviceParameters
  /-- After marks in the head of a string for a device. -/
  | deviceMarks
  /-- In a string. -/
  | string
deriving DecidableEq

/-- The character that opens a sequence. -/
def escapeChar : Char := '\x1b'

/-- Whether a character cancels a sequence. -/
def isCancel (c : Char) : Bool := c = '\x18' || c = '\x1a'

/-- Whether a control character lays out text. -/
def isLayout (c : Char) : Bool := c = '\t' || c = '\n' || c = '\x0c' || c = '\r'

/-- Whether a character is shown outside of every sequence. -/
def isVisible (c : Char) : Bool := isLayout c || (' ' ≤ c && c ≠ '\x7f')

/-- The byte that ends a string. -/
def stringTerminator : UInt8 := 0x9C

namespace ControlState

/-- The state behind a character. -/
def next (s : ControlState) (c : Char) : ControlState :=
  if c = escapeChar then .escape
  else if isCancel c then .outside
  else
    match s with
    | .outside => .outside
    | .escape =>
      if ' ' ≤ c && c ≤ '/' then .marks
      else if c = '[' then .parameters
      else if c = ']' then .title
      else if c = 'P' then .deviceHead
      else if c = 'X' || c = '^' || c = '_' then .string
      else if '0' ≤ c && c ≤ '~' then .outside
      else .escape
    | .marks => if '0' ≤ c && c ≤ '~' then .outside else .marks
    | .parameters => if '@' ≤ c && c ≤ '~' then .outside else .parameters
    | .title => if c = '\x07' then .outside else .title
    | .deviceHead =>
      if ' ' ≤ c && c ≤ '/' then .deviceMarks
      else if '0' ≤ c && c ≤ '?' then .deviceParameters
      else if '@' ≤ c && c ≤ '~' then .string
      else .deviceHead
    | .deviceParameters =>
      if ' ' ≤ c && c ≤ '/' then .deviceMarks
      else if '<' ≤ c && c ≤ '~' then .string
      else .deviceParameters
    | .deviceMarks => if '0' ≤ c && c ≤ '~' then .string else .deviceMarks
    | .string => if (String.utf8EncodeChar c).contains stringTerminator then .outside else .string

/-- Whether a layout character shows inside the sequence. -/
def showsLayout : ControlState → Bool
  | .escape | .marks | .parameters => true
  | _ => false

end ControlState

/-- The visible part of a text from a state on. A layout character that shows inside a sequence
    puts it off: the text goes on until the next control character or the end of ASCII, and only
    a control character takes the sequence up again. -/
def visibleFrom (s : ControlState) (isPutOff : Bool) : List Char → List Char
  | [] => []
  | c :: rest =>
    if s = .outside || isPutOff then
      if isVisible c then
        c :: visibleFrom (if c.toNat < 0x80 then s else .outside) isPutOff rest
      else visibleFrom (s.next c) false rest
    else if s.showsLayout && isLayout c then c :: visibleFrom s true rest
    else visibleFrom (s.next c) false rest

/-- The visible part of a text. -/
def visibleText (text : String) : String :=
  String.ofList (visibleFrom .outside false text.toList)

/-! ### Small laws -/

theorem visibleFrom_outside_eq_self {s : List Char} (h : ∀ c ∈ s, isVisible c = true) :
    visibleFrom .outside false s = s := by
  induction s with
  | nil => rfl
  | cons c rest ih =>
    have hc := h c List.mem_cons_self
    have hrest := ih fun d hd => h d (List.mem_cons_of_mem c hd)
    simp [visibleFrom, hc, hrest]

theorem isVisible_of_mem_visibleFrom {s : ControlState} {isPutOff : Bool} {text : List Char}
    {c : Char} (h : c ∈ visibleFrom s isPutOff text) : isVisible c = true := by
  fun_induction visibleFrom s isPutOff text with
  | case1 => simp at h
  | case2 s isPutOff d rest hOutside hVisible ih =>
    rcases List.mem_cons.1 h with rfl | h
    · exact hVisible
    · exact ih h
  | case3 s isPutOff d rest hOutside hVisible ih => exact ih h
  | case4 s isPutOff d rest hOutside hLayout ih =>
    rcases List.mem_cons.1 h with rfl | h
    · simp only [Bool.and_eq_true] at hLayout
      simp [isVisible, hLayout.2]
    · exact ih h
  | case5 s isPutOff d rest hOutside hLayout ih => exact ih h

end LedSequencer
