import LedSequencer.Span

/-! # Pause literals

  A pause is written as decimal digits and a unit, such as `250`, `3s` or `15µs`.
  Without a unit the amount counts milliseconds. Amounts are below `2 ^ 64`, and a
  literal whose seconds leave 64 bits stands for no span.
-/

namespace LedSequencer

/-! ### Arithmetic in 64 bits -/

/-- An amount times a factor, when the product fits into 64 bits. -/
def scaled? (amount factor : UInt64) : Option UInt64 :=
  if amount.toNat * factor.toNat < UInt64.size then some (amount * factor) else none

theorem scaled?_of_lt {amount factor : UInt64}
    (h : amount.toNat * factor.toNat < UInt64.size) :
    ∃ product, scaled? amount factor = some product ∧
      product.toNat = amount.toNat * factor.toNat := by
  refine ⟨amount * factor, ?_, ?_⟩
  · unfold scaled?
    rw [if_pos h]
  · rw [UInt64.toNat_mul, Nat.mod_eq_of_lt h]

theorem scaled?_of_le {amount factor : UInt64}
    (h : UInt64.size ≤ amount.toNat * factor.toNat) : scaled? amount factor = none := by
  unfold scaled?
  rw [if_neg (Nat.not_lt.2 h)]

namespace Span

/-- The span of whole seconds. -/
def ofSeconds (seconds : UInt64) : Span := { seconds, nanos := 0, nanos_lt := nanos_zero_lt }

/-- What is left of an amount of parts beyond the whole seconds, in nanoseconds, stays within 32
    bits. -/
theorem toNat_partsLeft {perSecond nanosEach : UInt32}
    (hsecond : perSecond.toNat * nanosEach.toNat = nanosPerSecond) (amount : UInt64) :
    ((amount % perSecond.toUInt64).toUInt32 * nanosEach).toNat =
        amount.toNat % perSecond.toNat * nanosEach.toNat ∧
      amount.toNat % perSecond.toNat * nanosEach.toNat < nanosPerSecond := by
  have hpos : 0 < perSecond.toNat * nanosEach.toNat := by
    rw [hsecond]
    decide
  have hleft : amount.toNat % perSecond.toNat < perSecond.toNat :=
    Nat.mod_lt _ (Nat.pos_of_mul_pos_right hpos)
  have hlt : amount.toNat % perSecond.toNat * nanosEach.toNat < nanosPerSecond := by
    rw [← hsecond]
    exact Nat.mul_lt_mul_of_pos_right hleft (Nat.pos_of_mul_pos_left hpos)
  have hword : perSecond.toNat < 2 ^ 32 := perSecond.toNat_lt
  have hsmall : nanosPerSecond < 2 ^ 32 := by decide
  refine ⟨?_, hlt⟩
  -- neither the conversion nor the product leaves 32 bits
  rw [UInt32.toNat_mul, UInt64.toNat_toUInt32, UInt64.toNat_mod, UInt32.toNat_toUInt64,
    Nat.mod_eq_of_lt (Nat.lt_trans hleft hword), Nat.mod_eq_of_lt (Nat.lt_trans hlt hsmall)]

/-- The span of `amount` parts of a second: so many of them make a second, and each lasts so many
    nanoseconds. -/
def ofParts (perSecond nanosEach : UInt32)
    (hsecond : perSecond.toNat * nanosEach.toNat = nanosPerSecond) (amount : UInt64) : Span where
  seconds := amount / perSecond.toUInt64
  nanos := (amount % perSecond.toUInt64).toUInt32 * nanosEach
  nanos_lt := by
    obtain ⟨hnanos, hlt⟩ := toNat_partsLeft hsecond amount
    rw [hnanos]
    exact hlt

theorem toNanos_ofSeconds (seconds : UInt64) :
    (ofSeconds seconds).toNanos = seconds.toNat * nanosPerSecond := by
  unfold toNanos ofSeconds
  exact Nat.add_zero _

/-- Cutting an amount into seconds and the rest loses nothing. -/
theorem toNanos_ofParts {perSecond nanosEach : UInt32}
    (hsecond : perSecond.toNat * nanosEach.toNat = nanosPerSecond) (amount : UInt64) :
    (ofParts perSecond nanosEach hsecond amount).toNanos = amount.toNat * nanosEach.toNat := by
  obtain ⟨hnanos, _⟩ := toNat_partsLeft hsecond amount
  have hwhole := Nat.div_add_mod amount.toNat perSecond.toNat
  unfold toNanos ofParts
  rw [hnanos, UInt64.toNat_div, UInt32.toNat_toUInt64, ← hsecond]
  calc amount.toNat / perSecond.toNat * (perSecond.toNat * nanosEach.toNat) +
        amount.toNat % perSecond.toNat * nanosEach.toNat
      = (perSecond.toNat * (amount.toNat / perSecond.toNat) + amount.toNat % perSecond.toNat) *
          nanosEach.toNat := by
        rw [Nat.add_mul, ← Nat.mul_assoc, Nat.mul_comm (amount.toNat / perSecond.toNat)]
    _ = amount.toNat * nanosEach.toNat := by rw [hwhole]

end Span

/-! ### Units -/

/-- The units a pause can be written in. -/
inductive SpanUnit where
  | hours
  | minutes
  | seconds
  | millis
  | micros
  | nanos
deriving DecidableEq

namespace SpanUnit

/-- The unit of an amount that is written without one. -/
def default : SpanUnit := .millis

/-- Reads a unit suffix; case matters. The sign of micro is U+00B5. -/
def ofSuffix? : List Char → Option SpanUnit
  | ['h'] => some .hours
  | ['m', 'i', 'n'] => some .minutes
  | ['s'] => some .seconds
  | ['m', 's'] => some .millis
  | ['µ', 's'] => some .micros
  | ['n', 's'] => some .nanos
  | _ => none

/-- How many nanoseconds one unit lasts. -/
def toNanos : SpanUnit → Nat
  | .hours => 3600 * Span.nanosPerSecond
  | .minutes => 60 * Span.nanosPerSecond
  | .seconds => Span.nanosPerSecond
  | .millis => 1000000
  | .micros => 1000
  | .nanos => 1

/-- The span of `amount` units, when its seconds fit into 64 bits. Parts of a second always fit. -/
def span? : SpanUnit → UInt64 → Option Span
  | .hours, amount => (scaled? amount 3600).map .ofSeconds
  | .minutes, amount => (scaled? amount 60).map .ofSeconds
  | .seconds, amount => some (.ofSeconds amount)
  | .millis, amount => some (.ofParts 1000 1000000 rfl amount)
  | .micros, amount => some (.ofParts 1000000 1000 rfl amount)
  | .nanos, amount => some (.ofParts 1000000000 1 rfl amount)

/-- Nothing is lost and nothing wraps around in 64 bits: the span lasts as long as its units, and it
    is refused only when its seconds do not fit. -/
theorem span?_eq_ofNanos? (unit : SpanUnit) (amount : UInt64) :
    unit.span? amount = Span.ofNanos? (amount.toNat * unit.toNanos) := by
  -- hours and minutes are turned into seconds first
  have hscaled (factor : UInt64) (hunit : unit.toNanos = factor.toNat * Span.nanosPerSecond)
      (hspan : unit.span? amount = (scaled? amount factor).map .ofSeconds) :
      unit.span? amount = Span.ofNanos? (amount.toNat * unit.toNanos) := by
    have hwhole : amount.toNat * unit.toNanos / Span.nanosPerSecond =
        amount.toNat * factor.toNat := by
      rw [hunit, ← Nat.mul_assoc]
      exact Nat.mul_div_cancel _ (by decide)
    by_cases hfits : amount.toNat * factor.toNat < UInt64.size
    · obtain ⟨product, hproduct, htoNat⟩ := scaled?_of_lt hfits
      rw [hspan, hproduct, Option.map_some, eq_comm, Span.ofNanos?_eq_some_iff,
        Span.toNanos_ofSeconds, htoNat, hunit, Nat.mul_assoc]
    · have hlong : UInt64.size ≤ amount.toNat * factor.toNat := Nat.le_of_not_lt hfits
      rw [hspan, scaled?_of_le hlong, Option.map_none, eq_comm, Span.ofNanos?_eq_none_iff, hwhole]
      exact hlong
  cases unit with
  | hours => exact hscaled 3600 rfl rfl
  | minutes => exact hscaled 60 rfl rfl
  | seconds =>
    rw [eq_comm]
    exact Span.ofNanos?_eq_some_iff.2 (Span.toNanos_ofSeconds amount)
  | millis | micros | nanos =>
    rw [eq_comm]
    exact Span.ofNanos?_eq_some_iff.2 (Span.toNanos_ofParts rfl amount)

/-- The name of the unit. -/
def name : SpanUnit → String
  | .hours => "Hours"
  | .minutes => "Minutes"
  | .seconds => "Seconds"
  | .millis => "Millis"
  | .micros => "Micros"
  | .nanos => "Nanos"

end SpanUnit

/-- The number that decimal digits write. -/
def decimalValue (digits : List Char) : Nat :=
  digits.foldl (fun n c => n * 10 + (c.toNat - '0'.toNat)) 0

/-- The amount that digits write, when there are digits and it is below `2 ^ 64`. -/
def amount? (digits : List Char) : Option UInt64 :=
  if digits = [] then none
  else if decimalValue digits < UInt64.size then some (UInt64.ofNat (decimalValue digits))
  else none

/-- The unit that a suffix asks for; an empty one asks for the default. -/
def suffixUnit? (suffix : List Char) : Option SpanUnit :=
  if suffix = [] then some SpanUnit.default else SpanUnit.ofSuffix? suffix

namespace Span

/-- Reads a pause literal: decimal digits, then a unit or nothing. -/
def ofLiteral? (literal : List Char) : Option Span := do
  let unit ← suffixUnit? (literal.dropWhile Char.isDigit)
  let amount ← amount? (literal.takeWhile Char.isDigit)
  unit.span? amount

end Span

end LedSequencer
