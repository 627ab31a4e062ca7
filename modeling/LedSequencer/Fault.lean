import LedSequencer.Pin

/-! # Faults of files, streams and pins -/

namespace LedSequencer

/-- Why a file, a stream or a pin could not be used. -/
inductive Fault where
  /-- No file or directory has the name. -/
  | notFound
  /-- A file stands where the path needs a directory. -/
  | notDirectory
  /-- A directory stands where the path needs a file. -/
  | isDirectory
  /-- A part of the path, or the whole of it, is longer than names can be. -/
  | nameTooLong
  /-- The path holds a zero character. -/
  | zeroInName
  /-- The bytes are not UTF-8. -/
  | notText
  /-- Something outside the files refused, in its own words. -/
  | other (text : String)
deriving DecidableEq, Inhabited

/-- The message of a fault. -/
def Fault.message : Fault → String
  | .notFound => "No such file or directory (os error 2)"
  | .notDirectory => "Not a directory (os error 20)"
  | .isDirectory => "Is a directory (os error 21)"
  | .nameTooLong => "File name too long (os error 36)"
  | .zeroInName => "file name contained an unexpected NUL byte"
  | .notText => "stream did not contain valid UTF-8"
  | .other text => text

/-- Whether the fault is a refusal from outside the files. -/
def Fault.isRefusal : Fault → Bool
  | .other _ => true
  | _ => false

/-- A pin that could not be set up or written. -/
structure PinError where
  /-- The pin that was called. -/
  pin : Pin
  /-- What went wrong. -/
  fault : Fault
deriving DecidableEq, Inhabited

/-- The message of a pin error names the pin first. -/
def PinError.message (e : PinError) : String := s!"pin {e.pin.text}: {e.fault.message}"

end LedSequencer
