/-! # Dates and times

  A moment is a date, a time of day, or both with a separator between them; a date
  with a time may end in an offset from universal time.
-/

namespace LedSequencer.Document

/-- Takes two digits that write a number in a range. -/
def twoDigits? (low high : Nat) : List Char → Option (Nat × List Char)
  | a :: b :: rest =>
    let n := (a.toNat - '0'.toNat) * 10 + (b.toNat - '0'.toNat)
    if a.isDigit && b.isDigit && low ≤ n && n ≤ high then some (n, rest) else none
  | _ => none

/-- Takes one given character. -/
def char? (c : Char) : List Char → Option (List Char)
  | d :: rest => if d = c then some rest else none
  | [] => none

/-- The number of days of a month. -/
def daysInMonth (year month : Nat) : Nat :=
  if month = 2 then
    if year % 4 = 0 && (year % 100 ≠ 0 || year % 400 = 0) then 29 else 28
  else if month = 4 || month = 6 || month = 9 || month = 11 then 30
  else 31

/-- Takes a date: four digits of a year, a month and a day of it. -/
def date? (s : List Char) : Option (List Char) := do
  let (century, s) ← twoDigits? 0 99 s
  let (rest, s) ← twoDigits? 0 99 s
  let s ← char? '-' s
  let (month, s) ← twoDigits? 1 12 s
  let s ← char? '-' s
  let (_, s) ← twoDigits? 1 (daysInMonth (century * 100 + rest) month) s
  some s

/-- Takes the fraction of a second, if there is a point. -/
def secondFraction? : List Char → Option (List Char)
  | '.' :: s => if (s.takeWhile Char.isDigit).isEmpty then none else some (s.dropWhile Char.isDigit)
  | s => some s

/-- Takes a time of day. A minute may have a sixty-first second. -/
def timeOfDay? (s : List Char) : Option (List Char) := do
  let (_, s) ← twoDigits? 0 23 s
  let s ← char? ':' s
  let (_, s) ← twoDigits? 0 59 s
  let s ← char? ':' s
  let (_, s) ← twoDigits? 0 60 s
  secondFraction? s

/-- Takes an offset from universal time, if there is one. -/
def offset? : List Char → Option (List Char)
  | [] => some []
  | c :: s =>
    if c = 'Z' || c = 'z' then some s
    else if c = '+' || c = '-' then do
      let (_, s) ← twoDigits? 0 23 s
      let s ← char? ':' s
      let (_, s) ← twoDigits? 0 59 s
      some s
    else none

/-- Takes what may follow a date: a separator, a time and an offset, or nothing. -/
def afterDate? : List Char → Option (List Char)
  | [] => some []
  | c :: s => if c = 'T' || c = 't' || c = ' ' then timeOfDay? s >>= offset? else none

/-- Whether characters are a moment. -/
def isMoment (s : List Char) : Bool :=
  (date? s >>= afterDate?) = some [] || timeOfDay? s = some []

/-- Whether characters are a date alone. -/
def isDate (s : List Char) : Bool := date? s = some []

end LedSequencer.Document
