import LedSequencer.Launch
import LedSequencer.Playback.Player
import LedSequencer.Playback.Watch
import Std.Async.Signal
import Std.Sync.Mutex

/-! # The program

  Carries out on real files, clocks and streams what the library describes: a player
  plays in the background while lines are read. When the input is over, breaks off or
  someone ends the program, the pins go off.
-/

namespace LedSequencer

/-! ### Files -/

/-- The fault that an error of the system stands for. -/
def Fault.ofSystem : IO.Error → Fault
  | .noFileOrDirectory _ _ _ => .notFound
  | .inappropriateType _ 20 _ => .notDirectory
  | .inappropriateType _ 21 _ => .isDirectory
  | error => .other (toString error)

/-- The fault of reading that an error of the system stands for. -/
def ReadError.ofSystem (error : IO.Error) : ReadError where
  kind :=
    match error with
    | .interrupted _ _ _ => .interrupted
    | .unexpectedEof => .unexpectedEnd
    | .resourceVanished 32 _ => .brokenPipe
    | _ => .other
  message := (Fault.ofSystem error).message

/-- The fault of an effect, if it has one. -/
def faultOf (effect : IO Unit) : IO (Option Fault) := do
  match ← effect.toBaseIO with
  | .ok _ => pure none
  | .error error => pure (some (.ofSystem error))

/-- The bytes of a file. -/
def readBytes (path : String) : IO (Except Fault (List UInt8)) := do
  match ← (IO.FS.readBinFile path).toBaseIO with
  | .ok bytes => pure (.ok bytes.toList)
  | .error error => pure (.error (.ofSystem error))

/-- Carries out a request to the file system. -/
def FileRequest.carryOut : (r : FileRequest) → IO r.Reply
  | .isPresent path => do ((← IO.currentDir) / path.text).pathExists
  | .write path text => faultOf (IO.FS.writeFile path.text text)
  | .rest => IO.sleep (UInt32.ofNat PinFiles.restMillis)

/-- Carries out a call of the driver that an invocation asks for, with what the driver reports. -/
def Invocation.drive (i : Invocation) (c : Call) : IO (Option Fault × List Event) := do
  if i.isDryRun then
    pure (none, dryRunEvents c)
  else
    let fault ← (PinFiles.filing (Path.ofString i.pinRoot) c).perform FileRequest.carryOut
    pure (fault, if fault.isNone then PinFiles.events c else [])

/-! ### The shared state -/

/-- What the player and the session share while the program runs. -/
structure Shared where
  /-- What the program was asked to do. -/
  invocation : Invocation
  /-- Whether the outputs are sealed; whoever calls the driver holds this. -/
  isSealed : Std.Mutex Bool
  /-- The active sequence. -/
  active : IO.Ref Published
  /-- The lock of those who wait and those who wake. -/
  gate : Std.BaseMutex
  /-- How many times everyone who was parked has been stirred. -/
  stirs : IO.Ref Nat
  /-- Whether the sequencer closes. -/
  closing : IO.Ref Bool

namespace Shared

/-- Shows an event to whoever runs the program, when it matters enough. That it cannot be shown
    stops nothing. -/
def report (event : Event) : IO Unit := do
  if event.severity.isShown then
    let _ ← (IO.eprintln event.line).toBaseIO

/-- Answers what an operation of the outputs asks for. -/
def request (s : Shared) : (r : Request) → IO r.Reply
  | .call c => do
    let (fault, events) ← s.invocation.drive c
    events.forM report
    pure fault
  | .report event => report event

/-- Carries out an operation of the outputs, which no other one interrupts. -/
def bank (s : Shared) (op : BankOp) : IO op.Reply :=
  s.isSealed.atomically do
    let result ← ((op.wiring (← get)).perform s.request : IO _)
    set result.2
    pure result.1

/-- How long a park or a sleep goes on before it looks up again, in milliseconds. -/
def sliceMillis : Nat := 100

/-- How many slices a park lasts. -/
def parkSlices : Nat := 10

/-- Stays parked for so many slices, or until everyone is stirred. -/
def stay (s : Shared) (seen : Nat) : Nat → IO Unit
  | 0 => pure ()
  | more + 1 => do
    if (← s.stirs.get) = seen then
      IO.sleep (UInt32.ofNat (sliceMillis / parkSlices))
      s.stay seen more

/-- Carries out a signal. Who parks counts the stirs before it gives the lock back, so none of them
    is missed. -/
def signal (s : Shared) : (q : Signal) → IO q.Reply
  | .lock => s.gate.lock
  | .unlock => s.gate.unlock
  | .notifyAll => s.stirs.modify (· + 1)
  | .park => do
    let seen ← s.stirs.get
    s.gate.unlock
    s.stay seen parkSlices
    s.gate.lock
  | .differs id => do pure ((← s.active.get).id != id)

/-- Sleeps for so many slices, or until the sequencer closes. -/
def sleepSlices (s : Shared) : Nat → IO Unit
  | 0 => pure ()
  | more + 1 => do
    unless ← s.closing.get do
      IO.sleep (UInt32.ofNat sliceMillis)
      s.sleepSlices more

/-- Sleeps for at least a span, or until the sequencer closes: nothing written later counts. -/
def sleep (s : Shared) (length : Span) : IO Unit := do
  let millis := (length.toNanos + 999999) / 1000000
  IO.sleep (UInt32.ofNat (millis % sliceMillis))
  s.sleepSlices (millis / sliceMillis)

/-- Carries out an action. -/
def act (s : Shared) : (a : Action) → IO a.Reply
  | .load => s.active.get
  | .publish sequence => s.active.modify fun p => p.next sequence
  | .wake => Watch.wake.perform s.signal
  | .await id => (Watch.await id).perform s.signal
  | .isClosing => s.closing.get
  | .close => s.closing.set true
  | .bank op => s.bank op
  | .sleep length => s.sleep length
  | .yield => IO.sleep 0
  | .report event => report event

/-- Carries out an activity. -/
def perform {α : Type} (s : Shared) (d : Activity α) : IO α := Dialogue.perform s.act d

/-! ### Player and session -/

/-- Plays until the sequencer closes. -/
partial def play (s : Shared) (p : Player) : IO Unit := do
  match ← s.perform p.round with
  | some p => s.play p
  | none => report .playerStopped

/-- The reading of the next line of a stream, of which these bytes have come. A fault breaks it off,
    but for interruptions. -/
partial def nextReading (input : IO.FS.Stream) (before : Array UInt8) : IO Reading := do
  match ← (input.read 1).toBaseIO with
  | .error error =>
    let error := ReadError.ofSystem error
    if error.kind = .interrupted then nextReading input before
    else pure (.failed ((textOfBytes? before.toList).getD "") error)
  | .ok bytes =>
    let chunk := before ++ bytes.data
    if bytes.isEmpty || bytes.data.back? = some lineFeed then pure (.ofChunk chunk.toList)
    else nextReading input chunk

/-- Lets a session take in lines until it ends. Nothing is taken in that was still being read when
    someone ended the program. -/
partial def serve (s : Shared) (input : IO.FS.Stream) (session : Session) :
    IO (Except ReadError Unit) := do
  if ← s.perform Activity.isClosing then
    pure (← s.perform session.leave).2
  else
    let reading ← nextReading input #[]
    if ← s.perform Activity.isClosing then
      pure (← s.perform session.leave).2
    else
      match ← s.perform (session.receive reading) with
      | (session, none) => s.serve input session
      | (_, some result) => pure result

/-- The signals by which someone ends the program. -/
def endingSignals : List Std.Async.Signal := [.sigint, .sigterm, .sighup]

/-- Lets the program be ended from now on. The pins go off at once, and the program is over with the
    reading that is under way. -/
def heed (s : Shared) (map : ChannelMap) : IO Unit :=
  endingSignals.forM fun signal => do
    let waiter ← Std.Async.Signal.Waiter.mk signal false
    let _ ← IO.mapTask (fun _ => s.perform (Invocation.breakOff map)) (← waiter.wait)

end Shared

/-! ### The command -/

/-- Carries an invocation out. -/
def Invocation.execute (i : Invocation) (home : String) : IO (Except LaunchError Unit) := do
  let path := i.configPath home
  match ChannelMap.ofReading path (← readBytes path) with
  | .error error => pure (.error (.config error))
  | .ok map =>
    let shared : Shared :=
      { invocation := i
        isSealed := ← Std.Mutex.new false
        active := ← IO.mkRef Published.first
        gate := ← Std.BaseMutex.new
        stirs := ← IO.mkRef 0
        closing := ← IO.mkRef false }
    match ← shared.perform (setUp path map) with
    | .error error => pure (.error error)
    | .ok _ =>
      shared.heed map
      let _ ← IO.asTask (shared.play (.start .first)) .dedicated
      shared.perform (Activity.report .readingPatterns)
      let result ← shared.serve (← IO.getStdin) (.start map)
      pure (result.mapError LaunchError.input)

/-- Says the last words; the answer is the exit code. -/
def Farewell.say (f : Farewell) : IO UInt32 := do
  IO.print f.output
  IO.eprint f.complaints
  pure (UInt32.ofNat f.exitCode)

end LedSequencer

open LedSequencer in
/-- Runs the program with its arguments. -/
def main (arguments : List String) : IO UInt32 := do
  match Invocation.ofArguments arguments with
  | .error stop => stop.farewell.say
  | .ok invocation =>
    let home := (← IO.getEnv "HOME").getD "."
    (Farewell.ofResult (← invocation.execute home)).say
