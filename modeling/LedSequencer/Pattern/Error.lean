import LedSequencer.Sequence

/-! # Errors of pattern lines -/

namespace LedSequencer

/-- Why a line was rejected. -/
inductive CompileError where
  /-- The line asks for more operations than a sequence holds. -/
  | tooLong (capacity : Nat)
deriving DecidableEq

namespace CompileError

/-- A full sequence rejects the line that fills it. -/
def ofSequenceError : SequenceError → CompileError
  | .capacityExceeded => .tooLong capacity

/-- The message of a rejected line. -/
def message : CompileError → String
  | .tooLong capacity => s!"pattern too long: more than {Nat.repr capacity} operations"

end CompileError

end LedSequencer
