import LedSequencer.Span.Literal
import Mathlib.Data.List.TakeWhile
import Mathlib.Data.Nat.Digits.Defs

/-! # Pause literals and their values

  A pause is written as an amount in decimal digits and one of a few units. Exactly the
  texts of this form stand for a span, as long as the amount and, for hours and minutes,
  its seconds stay below `2 ^ 64`; and the span is then exact to the nanosecond
  (`ofLiteral_iff_isPause`).

  * **The written form**, without any reader.
  * **Digits and units**: what each part of a literal is read as.
  * **Literals**: the reader splits a text where the digits end, and nowhere else.
-/

namespace LedSequencer

/-! ### The written form -/

/-- The value of a decimal digit. -/
def digitValue (c : Char) : Nat := c.toNat - '0'.toNat

/-- What can stand after the digits of a pause, and how many nanoseconds one unit of it lasts.
    Where nothing stands, the amount counts milliseconds. -/
def unitForms : List (String × Nat) :=
  [("", 10 ^ 6), ("h", 3600 * 10 ^ 9), ("min", 60 * 10 ^ 9), ("s", 10 ^ 9), ("ms", 10 ^ 6),
    ("µs", 10 ^ 3), ("ns", 1)]

/-- A literal is written as an amount and a unit, and both are within the limits. -/
structure IsPause (literal : List Char) (amount : Nat) (suffix : String) (nanos : Nat) : Prop where
  /-- The digits of the amount come first, at least one of them and zeros in front at will. -/
  digits : ∃ digits, literal = digits ++ suffix.toList ∧ digits ≠ [] ∧
    (∀ c ∈ digits, c.isDigit = true) ∧ amount = Nat.ofDigits 10 (digits.reverse.map digitValue)
  /-- The unit is one of those that there are. -/
  unit : (suffix, nanos) ∈ unitForms
  /-- The amount fits into 64 bits. -/
  amount_lt : amount < 2 ^ 64
  /-- So do the seconds of hours. -/
  hours_lt : suffix = "h" → amount * 3600 < 2 ^ 64
  /-- So do the seconds of minutes. -/
  minutes_lt : suffix = "min" → amount * 60 < 2 ^ 64

/-! ### Digits and units -/

theorem foldl_digits (digits : List Char) (n : Nat) :
    digits.foldl (fun n c => n * 10 + digitValue c) n =
      n * 10 ^ digits.length + Nat.ofDigits 10 (digits.reverse.map digitValue) := by
  induction digits generalizing n with
  | nil => simp
  | cons c rest ih =>
    -- the first digit counts most
    rw [List.foldl_cons, ih, List.reverse_cons, List.map_append, Nat.ofDigits_append,
      List.length_map, List.length_reverse, List.map_singleton, Nat.ofDigits_singleton,
      List.length_cons, Nat.pow_succ, Nat.add_mul]
    ring

/-- Reading digits one after the other comes to their value by places. -/
theorem decimalValue_eq_ofDigits (digits : List Char) :
    decimalValue digits = Nat.ofDigits 10 (digits.reverse.map digitValue) := by
  have hfold := foldl_digits digits 0
  rw [Nat.zero_mul, Nat.zero_add] at hfold
  exact hfold

theorem amount?_eq_some_iff {digits : List Char} {amount : UInt64} :
    amount? digits = some amount ↔ digits ≠ [] ∧ decimalValue digits = amount.toNat := by
  unfold amount?
  by_cases hnil : digits = []
  · simp [hnil]
  rw [if_neg hnil]
  have hlt : amount.toNat < UInt64.size := amount.toNat_lt
  by_cases hfits : decimalValue digits < UInt64.size
  · rw [if_pos hfits, Option.some_inj, ← UInt64.toNat_inj, UInt64.toNat_ofNat',
      Nat.mod_eq_of_lt hfits]
    exact ⟨fun h => ⟨hnil, h⟩, fun h => h.2⟩
  · rw [if_neg hfits]
    constructor
    · intro h
      cases h
    · intro h
      omega

/-- The units that are read are those that can be written. -/
theorem suffixUnit?_eq_some {suffix : List Char} {unit : SpanUnit}
    (h : suffixUnit? suffix = some unit) :
    ∃ form, (form, unit.toNanos) ∈ unitForms ∧ form.toList = suffix := by
  unfold suffixUnit? at h
  split at h
  · next hnil =>
    cases h
    exact ⟨"", by decide, hnil.symm⟩
  · unfold SpanUnit.ofSuffix? at h
    split at h
    · cases h; exact ⟨"h", by decide, rfl⟩
    · cases h; exact ⟨"min", by decide, rfl⟩
    · cases h; exact ⟨"s", by decide, rfl⟩
    · cases h; exact ⟨"ms", by decide, rfl⟩
    · cases h; exact ⟨"µs", by decide, rfl⟩
    · cases h; exact ⟨"ns", by decide, rfl⟩
    · cases h

theorem exists_unit_of_mem {suffix : String} {nanos : Nat} (h : (suffix, nanos) ∈ unitForms) :
    ∃ unit, suffixUnit? suffix.toList = some unit ∧ unit.toNanos = nanos := by
  have hall : ∀ form ∈ unitForms, ∃ unit ∈ [SpanUnit.hours, .minutes, .seconds, .millis, .micros,
      .nanos], suffixUnit? form.1.toList = some unit ∧ unit.toNanos = form.2 := by decide
  obtain ⟨unit, _, hunit⟩ := hall _ h
  exact ⟨unit, hunit⟩

/-- No unit begins with a digit. -/
theorem takeWhile_isDigit_of_mem {suffix : String} {nanos : Nat}
    (h : (suffix, nanos) ∈ unitForms) : suffix.toList.takeWhile Char.isDigit = [] := by
  have hall : ∀ form ∈ unitForms, form.1.toList.takeWhile Char.isDigit = [] := by decide
  exact hall _ h

/-- The limits say that the seconds fit into 64 bits. -/
theorem seconds_lt_iff {amount nanos : Nat} {suffix : String} (h : (suffix, nanos) ∈ unitForms)
    (hamount : amount < 2 ^ 64) :
    amount * nanos / Span.nanosPerSecond < UInt64.size ↔
      (suffix = "h" → amount * 3600 < 2 ^ 64) ∧ (suffix = "min" → amount * 60 < 2 ^ 64) := by
  simp only [unitForms, List.mem_cons, Prod.mk.injEq, List.not_mem_nil, or_false] at h
  rcases h with ⟨rfl, rfl⟩ | ⟨rfl, rfl⟩ | ⟨rfl, rfl⟩ | ⟨rfl, rfl⟩ | ⟨rfl, rfl⟩ | ⟨rfl, rfl⟩ |
    ⟨rfl, rfl⟩
  all_goals
    simp [Span.nanosPerSecond, UInt64.size]
    omega

/-! ### Literals -/

/-- A text of the written form stands for a span, and the span lasts as long as it says. -/
theorem IsPause.exists_span {literal : List Char} {amount nanos : Nat} {suffix : String}
    (h : IsPause literal amount suffix nanos) :
    ∃ d, Span.ofLiteral? literal = some d ∧ d.toNanos = amount * nanos := by
  obtain ⟨⟨digits, hliteral, hne, hdigits, hamount⟩, hform, hlt, hhours, hminutes⟩ := h
  obtain ⟨unit, hunit, hnanos⟩ := exists_unit_of_mem hform
  -- the digits end where the unit begins
  have htake : literal.takeWhile Char.isDigit = digits := by
    rw [hliteral, List.takeWhile_append_of_pos hdigits, takeWhile_isDigit_of_mem hform,
      List.append_nil]
  have hdrop : literal.dropWhile Char.isDigit = suffix.toList := by
    have hsplit := List.takeWhile_append_dropWhile (p := Char.isDigit) (l := literal)
    rw [htake] at hsplit
    exact List.append_cancel_left (hsplit.trans hliteral)
  have hvalue : (UInt64.ofNat amount).toNat = amount := by
    rw [UInt64.toNat_ofNat', Nat.mod_eq_of_lt hlt]
  have hread : amount? digits = some (UInt64.ofNat amount) := by
    rw [amount?_eq_some_iff, hvalue, hamount]
    exact ⟨hne, decimalValue_eq_ofDigits digits⟩
  have hfits := (seconds_lt_iff hform hlt).2 ⟨hhours, hminutes⟩
  have hspan : ∃ d, Span.ofNanos? (amount * nanos) = some d := by
    rw [← Option.isSome_iff_exists, Option.isSome_iff_ne_none]
    intro hnone
    rw [Span.ofNanos?_eq_none_iff] at hnone
    omega
  obtain ⟨d, hd⟩ := hspan
  refine ⟨d, ?_, Span.toNanos_of_ofNanos? hd⟩
  unfold Span.ofLiteral?
  rw [htake, hdrop, hunit, hread]
  show unit.span? _ = _
  rw [SpanUnit.span?_eq_ofNanos?, hvalue, hnanos, hd]

/-- What is read as a span is of the written form. -/
theorem exists_isPause {literal : List Char} {d : Span} (h : Span.ofLiteral? literal = some d) :
    ∃ amount suffix nanos, IsPause literal amount suffix nanos ∧ d.toNanos = amount * nanos := by
  unfold Span.ofLiteral? at h
  obtain ⟨unit, hunit, h⟩ := Option.bind_eq_some_iff.1 h
  obtain ⟨amount, hamount, h⟩ := Option.bind_eq_some_iff.1 h
  obtain ⟨suffix, hform, hsuffix⟩ := suffixUnit?_eq_some hunit
  obtain ⟨hne, hvalue⟩ := amount?_eq_some_iff.1 hamount
  rw [SpanUnit.span?_eq_ofNanos?] at h
  have hnanos := Span.toNanos_of_ofNanos? h
  have hlt : amount.toNat < 2 ^ 64 := amount.toNat_lt
  have hfits : amount.toNat * unit.toNanos / Span.nanosPerSecond < UInt64.size := by
    rw [← hnanos]
    exact d.toNanos_lt
  obtain ⟨hhours, hminutes⟩ := (seconds_lt_iff hform hlt).1 hfits
  refine ⟨amount.toNat, suffix, unit.toNanos, ?_, hnanos⟩
  refine ⟨⟨literal.takeWhile Char.isDigit, ?_, hne, ?_, ?_⟩, hform, hlt, hhours, hminutes⟩
  · rw [hsuffix, List.takeWhile_append_dropWhile]
  · intro c hc
    exact List.mem_takeWhile_imp hc
  · rw [← hvalue]
    exact decimalValue_eq_ofDigits _

/-- **Pause literals are read exactly.** A text stands for a span if and only if it is an amount
    in decimal digits and a unit, within the limits of 64 bits. The span lasts then exactly as
    many nanoseconds as that many of the unit, cut into whole seconds and less than one second
    beyond them. Every other text stands for no span. -/
theorem ofLiteral_iff_isPause (literal : List Char) :
    (∀ d, Span.ofLiteral? literal = some d ↔
      ∃ amount suffix nanos, IsPause literal amount suffix nanos ∧
        d.seconds.toNat * 10 ^ 9 + d.nanos.toNat = amount * nanos ∧
        d.nanos.toNat < 10 ^ 9 ∧ d.seconds.toNat < 2 ^ 64) ∧
    (Span.ofLiteral? literal = none ↔
      ¬ ∃ amount suffix nanos, IsPause literal amount suffix nanos) := by
  constructor
  · intro d
    constructor
    · intro hread
      obtain ⟨amount, suffix, nanos, hpause, htotal⟩ := exists_isPause hread
      exact ⟨amount, suffix, nanos, hpause, htotal, d.nanos_lt, d.seconds.toNat_lt⟩
    · rintro ⟨amount, suffix, nanos, hpause, htotal, _, _⟩
      -- a span is known by how long it lasts
      obtain ⟨e, hread, hnanos⟩ := hpause.exists_span
      have hsame : e.toNanos = d.toNanos := hnanos.trans htotal.symm
      rw [hread, Span.toNanos_injective hsame]
  · constructor
    · rintro hnone ⟨amount, suffix, nanos, hpause⟩
      obtain ⟨d, hread, _⟩ := hpause.exists_span
      rw [hnone] at hread
      cases hread
    · intro hother
      rw [Option.eq_none_iff_forall_ne_some]
      intro d hread
      obtain ⟨amount, suffix, nanos, hpause, _⟩ := exists_isPause hread
      exact hother ⟨amount, suffix, nanos, hpause⟩

end LedSequencer
