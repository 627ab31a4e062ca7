import LedSequencer.FileTree
import LedSequencer.Output.Driver

/-! # Pins as files

  A system can show its pins as files: below one root directory, writing a pin's
  number to `export` makes a directory `gpioN` appear, whose files `direction` and
  `value` set pin N up and drive it. The directory may need a moment until its files
  can be written, so `direction` is tried up to ten times.
-/

namespace LedSequencer

/-- What driving a pin asks of the file system. -/
inductive FileRequest where
  /-- Whether the path leads to a file or a directory. -/
  | isPresent (path : Path)
  /-- Make a text the whole content of a file. -/
  | write (path : Path) (text : String)
  /-- Wait a moment before the next try. -/
  | rest

/-- A write is answered by the fault, if there is one. -/
@[reducible] def FileRequest.Reply : FileRequest → Type
  | .isPresent _ => Bool
  | .write _ _ => Option Fault
  | .rest => Unit

/-- A stretch of requests to the file system. -/
abbrev Filing := Dialogue FileRequest FileRequest.Reply

namespace Filing

/-- Asks whether a path leads to a file or a directory. -/
def isPresent (path : Path) : Filing Bool := .ask (.isPresent path) .done

/-- Writes a file. -/
def write (path : Path) (text : String) : Filing (Option Fault) := .ask (.write path text) .done

/-- Waits a moment. -/
def rest : Filing Unit := .ask .rest .done

end Filing

namespace PinFiles

/-- Where systems show their pins. -/
def defaultRoot : String := "/sys/class/gpio"

/-- How often writing a direction is tried. -/
def tries : Nat := 10

/-- How long to wait between two tries, in milliseconds. -/
def restMillis : Nat := 10

/-- The directory of a pin. -/
def directory (root : Path) (pin : Pin) : Path := root.join s!"gpio{pin.text}"

/-- Writes a file, again after a rest while that fails, up to `more` times after the first. -/
def writeRepeatedly (path : Path) (text : String) : Nat → Filing (Option Fault)
  | 0 => Filing.write path text
  | more + 1 => do
    match ← Filing.write path text with
    | none => pure none
    | some _ =>
      Filing.rest
      writeRepeatedly path text more

/-- Sets a pin up for output; its number goes to `export` first when it has no directory yet. -/
def configure (root : Path) (pin : Pin) : Filing (Option Fault) := do
  let isPresent ← Filing.isPresent (directory root pin)
  let exportFault ← if isPresent then pure none else Filing.write (root.join "export") pin.text
  match exportFault with
  | some fault => pure (some fault)
  | none => writeRepeatedly ((directory root pin).join "direction") "out" (tries - 1)

/-- Drives a pin. -/
def set (root : Path) (pin : Pin) (level : Level) : Filing (Option Fault) :=
  Filing.write ((directory root pin).join "value") level.digit

/-- What a call asks of the file system. -/
def filing (root : Path) : Call → Filing (Option Fault)
  | .configure pin => configure root pin
  | .set pin level => set root pin level

/-- What is reported of a call that went well. -/
def events : Call → List Event
  | .configure pin => [.configured pin]
  | .set _ _ => []

end PinFiles

namespace FileTree

/-- Answers a request; a write that fails leaves the tree as it is. -/
def reply : (r : FileRequest) → FileTree → r.Reply × FileTree
  | .isPresent path, t => (t.isPresent path, t)
  | .write path text, t =>
    match t.write path text with
    | .ok t' => (none, t')
    | .error fault => (some fault, t)
  | .rest, t => ((), t)

end FileTree

/-- What pins can be driven through. -/
inductive Hardware where
  /-- Nothing: every call succeeds without effect. -/
  | nothing
  /-- Reports instead of effects. -/
  | dryRun
  /-- Files of a tree below a root. -/
  | files (root : Path) (tree : FileTree)
deriving Inhabited

namespace Hardware

/-- The tree behind the pins, if they are files. -/
def tree? : Hardware → Option FileTree
  | .files _ tree => some tree
  | _ => none

instance : PinDriver Hardware where
  respond
    | _, .nothing => { driver := .nothing, fault := none, events := [] }
    | c, .dryRun => { driver := .dryRun, fault := none, events := dryRunEvents c }
    | c, .files root tree =>
      let r := (PinFiles.filing root c).run FileTree.reply tree
      { driver := .files root r.2
        fault := r.1
        events := if r.1.isNone then PinFiles.events c else [] }

end Hardware

end LedSequencer
