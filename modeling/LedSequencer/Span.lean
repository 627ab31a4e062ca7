/-! # Lengths of time

  A `Span` is a whole number of seconds below `2 ^ 64` and a fraction below one
  second, counted in nanoseconds. `Span.toNanos` is the view of it that all
  arithmetic goes through; `Span.ofNanos?` inverts it (`ofNanos?_eq_some_iff`).
-/

namespace LedSequencer

/-- A length of time, exact to the nanosecond. -/
structure Span where
  /-- Whole seconds. -/
  seconds : UInt64
  /-- Nanoseconds beyond the whole seconds. -/
  nanos : UInt32
  /-- The fraction stays below one second. -/
  nanos_lt : nanos.toNat < 1000000000 := by decide
deriving DecidableEq

namespace Span

/-! ### The view in nanoseconds -/

/-- Nanoseconds in one second. -/
def nanosPerSecond : Nat := 1000000000

/-- The whole length in nanoseconds. -/
def toNanos (d : Span) : Nat := d.seconds.toNat * nanosPerSecond + d.nanos.toNat

/-- No fraction at all is below one second. -/
theorem nanos_zero_lt : (0 : UInt32).toNat < 1000000000 := by decide

/-- The empty span. -/
def zero : Span := { seconds := 0, nanos := 0, nanos_lt := nanos_zero_lt }

instance : Inhabited Span := ⟨zero⟩

/-- The span of `n` nanoseconds, when its seconds fit into 64 bits. -/
def ofNanos? (n : Nat) : Option Span :=
  if n / nanosPerSecond < UInt64.size then
    some
      { seconds := UInt64.ofNat (n / nanosPerSecond)
        nanos := UInt32.ofNat (n % nanosPerSecond)
        nanos_lt := by
          simp only [UInt32.toNat_ofNat', nanosPerSecond]
          omega }
  else
    none

theorem toNanos_lt (d : Span) : d.toNanos / nanosPerSecond < UInt64.size := by
  have hs := d.seconds.toNat_lt
  have hn := d.nanos_lt
  simp only [toNanos, nanosPerSecond, UInt64.size]
  omega

theorem toNanos_of_ofNanos? {n : Nat} {d : Span} (h : ofNanos? n = some d) : d.toNanos = n := by
  unfold ofNanos? at h
  split at h
  · next hn =>
    cases h
    simp only [toNanos, UInt64.toNat_ofNat', UInt32.toNat_ofNat', nanosPerSecond,
      UInt64.size] at hn ⊢
    omega
  · cases h

theorem toNanos_injective {a b : Span} (h : a.toNanos = b.toNanos) : a = b := by
  have ha := a.nanos_lt
  have hb := b.nanos_lt
  simp only [toNanos, nanosPerSecond] at h
  obtain ⟨sa, na, _⟩ := a
  obtain ⟨sb, nb, _⟩ := b
  have hs : sa = sb := UInt64.toNat_inj.1 (by simp only at ha hb h; omega)
  have hn : na = nb := UInt32.toNat_inj.1 (by simp only at ha hb h; omega)
  subst hs
  subst hn
  rfl

/-- `ofNanos?` is the inverse of `toNanos`. -/
theorem ofNanos?_eq_some_iff {n : Nat} {d : Span} : ofNanos? n = some d ↔ d.toNanos = n := by
  constructor
  · exact toNanos_of_ofNanos?
  · rintro rfl
    have h : ∃ e, ofNanos? d.toNanos = some e := by
      simp only [ofNanos?, d.toNanos_lt, if_true]
      exact ⟨_, rfl⟩
    obtain ⟨e, he⟩ := h
    rw [he, toNanos_injective (toNanos_of_ofNanos? he)]

theorem ofNanos?_eq_none_iff {n : Nat} : ofNanos? n = none ↔ UInt64.size ≤ n / nanosPerSecond := by
  simp [ofNanos?]

/-! ### Text -/

/-- The digits of `fraction` after the point, `places` wide, without the zeros that end them. -/
def fractionDigits (places fraction : Nat) : List Char :=
  let digits := Nat.toDigits 10 fraction
  let padded := List.replicate (places - digits.length) '0' ++ digits
  (padded.reverse.dropWhile (· = '0')).reverse

/-- A whole part, a point and the digits of the fraction when it is not zero, then the unit. -/
def decimal (whole places fraction : Nat) (unit : String) : String :=
  match fractionDigits places fraction with
  | [] => s!"{whole}{unit}"
  | digits => s!"{whole}.{String.ofList digits}{unit}"

/-- The span in the largest of the units s, ms, µs and ns in which it reaches one, exactly; zero is
    counted in ns. -/
def text (d : Span) : String :=
  let n := d.nanos.toNat
  if d.seconds ≠ 0 then decimal d.seconds.toNat 9 n "s"
  else if 1000000 ≤ n then decimal (n / 1000000) 6 (n % 1000000) "ms"
  else if 1000 ≤ n then decimal (n / 1000) 3 (n % 1000) "µs"
  else decimal n 0 0 "ns"

end Span

end LedSequencer
