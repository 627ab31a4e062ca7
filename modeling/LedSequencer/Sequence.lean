import LedSequencer.Operation

/-! # Bounded sequences of operations

  A `Sequence` is what a player plays: a body of at most 999 operations, closed by
  one `rewind`. It is *static* when nothing in it waits. The bound, the place of
  the `rewind` and the flag are fields of the type, so every sequence has them.
-/

namespace LedSequencer

/-- How many operations a sequence can hold, the closing `rewind` included. -/
def capacity : Nat := 1000

/-- A closed sequence of operations. -/
structure Sequence where
  /-- The operations before the closing `rewind`. -/
  body : Array Operation
  /-- Whether nothing in the body waits. -/
  isStatic : Bool
  /-- One place is left for the closing `rewind`. -/
  size_lt : body.size < capacity
  /-- Only the closing place rewinds. -/
  rewind_notMem : Operation.rewind ∉ body
  /-- The flag tells of the body. -/
  isStatic_eq : isStatic = body.all fun op => !op.isPause
deriving DecidableEq

/-- Why an operation was not appended. -/
inductive SequenceError where
  /-- No place is left for the operation beside the closing `rewind`. -/
  | capacityExceeded
deriving DecidableEq

/-- The message of a sequence error. -/
def SequenceError.message : SequenceError → String
  | .capacityExceeded => "sequence capacity exceeded"

namespace Sequence

/-- The idle sequence: it rewinds at once and writes no pin. -/
def idle : Sequence where
  body := #[]
  isStatic := true
  size_lt := by decide
  rewind_notMem := by simp
  isStatic_eq := by simp

instance : Inhabited Sequence := ⟨idle⟩

/-- Appends an operation before the closing `rewind`. A further `rewind` is accepted and dropped;
    an operation for which no place is left is refused. -/
def push (s : Sequence) (op : Operation) : Except SequenceError Sequence :=
  if hop : op = .rewind then
    .ok s
  else if hs : s.body.size + 1 < capacity then
    .ok
      { body := s.body.push op
        isStatic := s.isStatic && !op.isPause
        size_lt := by simpa using hs
        rewind_notMem := by
          simp only [Array.mem_push, not_or]
          exact ⟨s.rewind_notMem, fun h => hop h.symm⟩
        isStatic_eq := by rw [s.isStatic_eq, Array.all_push] }
  else
    .error .capacityExceeded

/-- Appends as `push` does and leaves the sequence as it is when that is refused. -/
def pushOrKeep (s : Sequence) (op : Operation) : Sequence :=
  match s.push op with
  | .ok longer => longer
  | .error _ => s

/-- The sequence that a list of operations makes; those for which no place is left are dropped. -/
def ofList (ops : List Operation) : Sequence := ops.foldl pushOrKeep idle

/-- What came of appending an operation several times. -/
structure Appended where
  /-- How many times it was accepted. -/
  accepted : Nat
  /-- The sequence after the last time that it was accepted. -/
  sequence : Sequence
  /-- The refusal that ended it, if there was one. -/
  refusal : Option SequenceError
deriving DecidableEq

/-- Goes on appending an operation, so many times at most and up to the first refusal. -/
def Appended.more (op : Operation) : Nat → Appended → Appended
  | 0, a => a
  | times + 1, a =>
    match a.sequence.push op with
    | .ok longer => more op times { a with accepted := a.accepted + 1, sequence := longer }
    | .error error => { a with refusal := some error }

/-- Appends an operation so many times at most, up to the first refusal. -/
def pushTimes (s : Sequence) (op : Operation) (times : Nat) : Appended :=
  Appended.more op times { accepted := 0, sequence := s, refusal := none }

/-- The operation at a place; past the body there is `rewind`. -/
def get (s : Sequence) (i : Nat) : Operation := s.body[i]?.getD .rewind

/-- The number of operations with the closing `rewind`. -/
def length (s : Sequence) : Nat := s.body.size + 1

/-- Whether the sequence has nothing but its `rewind`. -/
def isEmpty (s : Sequence) : Bool := s.length ≤ 1

/-- All operations with the closing `rewind`. -/
def operations (s : Sequence) : List Operation := s.body.toList ++ [.rewind]

/-- The sequence as inspection shows it. -/
def inspect (s : Sequence) : String :=
  let ops := ", ".intercalate (s.operations.map Operation.inspect)
  s!"OperationSequence \x7b operations: [{ops}], is_static: {s.isStatic} \x7d"

/-! ### Small laws -/

theorem length_operations (s : Sequence) : s.operations.length = s.length := by
  simp [operations, length]

theorem length_le (s : Sequence) : s.length ≤ capacity := s.size_lt

theorem length_pos (s : Sequence) : 0 < s.length := Nat.succ_pos _

theorem get_eq_getD (s : Sequence) (i : Nat) : s.get i = s.operations[i]?.getD .rewind := by
  unfold get operations
  by_cases h : i < s.body.size
  · rw [List.getElem?_append_left (by rwa [Array.length_toList]), Array.getElem?_toList]
  · have hle : s.body.size ≤ i := Nat.le_of_not_lt h
    rw [Array.getElem?_eq_none hle, List.getElem?_append_right (by rwa [Array.length_toList])]
    cases i - s.body.toList.length with
    | zero => rfl
    | succ n => rfl

end Sequence

end LedSequencer
