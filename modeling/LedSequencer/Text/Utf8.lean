/-! # Text from bytes

  A byte string is cut into chunks after each line feed, and a chunk is text when it
  is UTF-8. For display, bytes that are no UTF-8 show as replacement characters.
-/

namespace LedSequencer

/-- The byte that ends a line. -/
def lineFeed : UInt8 := 10

/-- Cuts bytes after each line feed. The last chunk may lack one; no chunk is empty. -/
def chunks : List UInt8 → List (List UInt8)
  | [] => []
  | b :: rest =>
    if b = lineFeed then [b] :: chunks rest
    else
      match chunks rest with
      | [] => [[b]]
      | chunk :: more => (b :: chunk) :: more

/-- The text that bytes encode, when they are UTF-8. -/
def textOfBytes? (bytes : List UInt8) : Option String := String.fromUTF8? bytes.toByteArray

/-! ### Display of bytes that may be no text -/

/-- A character of which some bytes have been read. -/
structure PartialChar where
  /-- The value of the bits so far. -/
  value : Nat
  /-- How many bytes follow after the next one. -/
  missing : Nat
  /-- The least value the next byte may have. -/
  low : UInt8 := 0x80
  /-- The greatest value the next byte may have. -/
  high : UInt8 := 0xBF

/-- What a byte means where a character may start. -/
inductive LeadByte where
  /-- The byte is a character. -/
  | whole (c : Char)
  /-- The byte starts a longer character. -/
  | starts (p : PartialChar)
  /-- No character starts with the byte. -/
  | stray

/-- Reads a byte where a character may start. The bounds on the second byte leave out the values
    that have a shorter form, the surrogates and what lies beyond the last code point. -/
def LeadByte.of (b : UInt8) : LeadByte :=
  let n := b.toNat
  if n < 0x80 then .whole (Char.ofNat n)
  else if n < 0xC2 then .stray
  else if n < 0xE0 then .starts { value := n - 0xC0, missing := 0 }
  else if n = 0xE0 then .starts { value := 0, missing := 1, low := 0xA0 }
  else if n = 0xED then .starts { value := 0xD, missing := 1, high := 0x9F }
  else if n < 0xF0 then .starts { value := n - 0xE0, missing := 1 }
  else if n = 0xF0 then .starts { value := 0, missing := 2, low := 0x90 }
  else if n < 0xF4 then .starts { value := n - 0xF0, missing := 2 }
  else if n = 0xF4 then .starts { value := 4, missing := 2, high := 0x8F }
  else .stray

/-- The character that stands for bytes which are no text. -/
def replacementChar : Char := '\uFFFD'

/-- Reads on from a character that may be under way. A character that breaks off shows as one
    replacement, and the byte that broke it is read anew. -/
def displayFrom : Option PartialChar → List UInt8 → List Char
  | none, [] => []
  | some _, [] => [replacementChar]
  | state, b :: rest =>
    match state with
    | some p =>
      if p.low ≤ b && b ≤ p.high then
        let value := p.value * 64 + (b.toNat - 0x80)
        match p.missing with
        | 0 => Char.ofNat value :: displayFrom none rest
        | missing + 1 => displayFrom (some { value, missing }) rest
      else
        replacementChar ::
          match LeadByte.of b with
          | .whole c => c :: displayFrom none rest
          | .starts q => displayFrom (some q) rest
          | .stray => replacementChar :: displayFrom none rest
    | none =>
      match LeadByte.of b with
      | .whole c => c :: displayFrom none rest
      | .starts q => displayFrom (some q) rest
      | .stray => replacementChar :: displayFrom none rest

/-- The text of bytes, with a replacement character for each stretch that is no UTF-8. -/
def displayBytes (bytes : List UInt8) : String := String.ofList (displayFrom none bytes)

/-! ### Small laws -/

theorem flatten_chunks (bytes : List UInt8) : (chunks bytes).flatten = bytes := by
  induction bytes with
  | nil => rfl
  | cons b rest ih =>
    unfold chunks
    split
    · simp [ih]
    · split
      · next h => simp [h] at ih; simp [← ih]
      · next chunk more h => simp [h] at ih; simp [ih]

end LedSequencer
