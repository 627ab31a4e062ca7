import LedSequencer.Document.Quoted

/-! # Numbers

  Whole numbers are decimal, or hexadecimal, octal or binary after `0x`, `0o` and
  `0b`; they fit into 64 bits with a sign. Reals have a fraction or an exponent.
  Single underscores may stand between digits.
-/

namespace LedSequencer.Document

/-- The values of the digits of a number in a base, underscores between digits left out. There is
    at least one digit. -/
def digits? (base : Nat) : List Char → Option (List Nat)
  | [] => none
  | [c] => do
    let d ← (digitValue? c).filter (· < base)
    some [d]
  | c :: '_' :: rest => do
    let d ← (digitValue? c).filter (· < base)
    let ds ← digits? base rest
    some (d :: ds)
  | c :: next :: rest => do
    let d ← (digitValue? c).filter (· < base)
    let ds ← digits? base (next :: rest)
    some (d :: ds)

/-- The number that digits write in a base. -/
def ofDigits (base : Nat) (ds : List Nat) : Nat := ds.foldl (fun n d => n * base + d) 0

/-- The digits of a decimal number that has no needless zero in front. -/
def wholeDigits? (s : List Char) : Option (List Nat) := do
  let ds ← digits? 10 s
  if ds.head? = some 0 && s.length ≠ 1 then none else some ds

/-- The least whole number beyond 63 bits. -/
def integerBound : Nat := 9223372036854775808

/-- A number below the bound. -/
def natural? (base : Nat) (ds : List Nat) : Option Int :=
  if ofDigits base ds < integerBound then some (Int.ofNat (ofDigits base ds)) else none

/-- A whole number. -/
def integer? : List Char → Option Int
  | '0' :: 'x' :: s => digits? 16 s >>= natural? 16
  | '0' :: 'o' :: s => digits? 8 s >>= natural? 8
  | '0' :: 'b' :: s => digits? 2 s >>= natural? 2
  | '+' :: s => wholeDigits? s >>= natural? 10
  | '-' :: s => do
    let ds ← wholeDigits? s
    if ofDigits 10 ds ≤ integerBound then some (-Int.ofNat (ofDigits 10 ds)) else none
  | s => wholeDigits? s >>= natural? 10

/-! ### Reals -/

/-- Leaves out a sign. -/
def unsigned : List Char → List Char
  | '+' :: s => s
  | '-' :: s => s
  | s => s

/-- The exponent of a real: an optional sign and digits. -/
def exponent? (s : List Char) : Option Int := do
  let ds ← digits? 10 (unsigned s)
  let n := Int.ofNat (ofDigits 10 ds)
  some (if s.head? = some '-' then -n else n)

/-- The number of decimal digits of a number. -/
def decimalLength (n : Nat) : Nat := (Nat.toDigits 10 n).length

/-- The least magnitude that rounds to infinity in double precision: half a step above the greatest
    finite value. -/
def doubleBound : Nat := Nat.pow 2 1024 - Nat.pow 2 970

/-- Whether `mantissa * 10 ^ exponent` rounds to infinity in double precision. Numbers far from the
    bound are told by their count of digits alone. -/
def overflowsDouble (mantissa : Nat) (exponent : Int) : Bool :=
  let magnitude := Int.ofNat (decimalLength mantissa) + exponent
  if mantissa = 0 || magnitude < 300 then false
  else if 320 < magnitude then true
  else if 0 ≤ exponent then doubleBound ≤ mantissa * Nat.pow 10 exponent.toNat
  else doubleBound * Nat.pow 10 (-exponent).toNat ≤ mantissa

/-- The digits of a fraction, without its point; a number without a fraction has none. -/
def fraction? : List Char → Option (List Nat)
  | [] => some []
  | '.' :: s => digits? 10 s
  | _ => none

/-- The exponent of a real from its letter on; a number without one has exponent zero. -/
def scale? : List Char → Option Int
  | [] => some 0
  | c :: s => if c = 'e' || c = 'E' then exponent? s else none

/-- Whether characters are a finite real: a whole part with a fraction, an exponent or both, whose
    positive value stays in the range of double precision. -/
def isFiniteReal (s : List Char) : Bool :=
  let isExponentMark := fun c => c = 'e' || c = 'E'
  let body := unsigned s
  let mantissa := body.takeWhile fun c => !isExponentMark c
  let scale := body.dropWhile fun c => !isExponentMark c
  let whole := mantissa.takeWhile (· ≠ '.')
  let fraction := mantissa.dropWhile (· ≠ '.')
  match wholeDigits? whole, fraction? fraction, scale? scale with
  | some wholeDigits, some fractionDigits, some exponent =>
    let mantissaValue := ofDigits 10 (wholeDigits ++ fractionDigits)
    let overflows := overflowsDouble mantissaValue (exponent - Int.ofNat fractionDigits.length)
    (fraction ≠ [] || scale ≠ []) && !(s.head? ≠ some '-' && overflows)
  | _, _, _ => false

/-- Whether characters are a real. -/
def isReal (s : List Char) : Bool :=
  unsigned s = ['i', 'n', 'f'] || unsigned s = ['n', 'a', 'n'] || isFiniteReal s

end LedSequencer.Document
