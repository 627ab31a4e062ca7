import LedSequencer.ChannelMap.File
import LedSequencer.CommandLine
import LedSequencer.Playback.Session
import LedSequencer.Playback.World

/-! # From the command line to the end

  A launch reads the command line and the configuration file, sets the pins up and
  takes in lines until the input ends or someone ends the program. Whatever the
  player writes meanwhile goes to pins that the end switches off, so what a launch
  leaves behind does not depend on the player.
-/

namespace LedSequencer

/-! ### Failures -/

/-- Why a launch failed. -/
inductive LaunchError where
  /-- There is no channel map. -/
  | config (error : ConfigError)
  /-- The pins could not be set up. -/
  | outputs (error : PinError)
  /-- The input broke off. -/
  | input (error : ReadError)
deriving DecidableEq

namespace LaunchError

/-- The message and the chain of what lies behind it, nearest first. -/
def chain : LaunchError → String × List String
  | .config error => (error.message, error.cause?.toList.map Fault.message)
  | .outputs error =>
    ("failed to configure output pins", [error.message, error.fault.message])
  | .input error => (error.message, [])

/-- The lines for the causes of a message: a single cause stands alone, several are numbered. -/
def causeLines : List String → List String
  | [] => []
  | [cause] => ["", "Caused by:", s!"    {cause}"]
  | causes => ["", "Caused by:"] ++ causes.mapIdx fun i cause => s!"    {Nat.repr i}: {cause}"

/-- What the program says about a failure. -/
def report (error : LaunchError) : String :=
  let lines := s!"Error: {error.chain.1}" :: causeLines error.chain.2
  String.join (lines.map (· ++ "\n"))

end LaunchError

/-! ### Last words -/

/-- What the program says when it is over. -/
structure Farewell where
  /-- The number that tells of success. -/
  exitCode : Nat
  /-- The output. -/
  output : String
  /-- The complaints. -/
  complaints : String
deriving DecidableEq

/-- What the program says when its command line starts no sequencer. -/
def Stop.farewell : Stop → Farewell
  | .help => { exitCode := 0, output := helpText, complaints := "" }
  | .version => { exitCode := 0, output := versionText, complaints := "" }
  | .misuse error => { exitCode := 2, output := "", complaints := error.message ++ "\n" }

/-- What the program says when the sequencer has ended, or was not to be started. -/
def Farewell.ofResult : Except LaunchError Unit → Farewell
  | .ok _ => { exitCode := 0, output := "", complaints := "" }
  | .error error => { exitCode := 1, output := "", complaints := error.report }

/-! ### Launches -/

/-- How a program ends that has come to reading lines. -/
inductive Ending where
  /-- The input has these readings and ends. -/
  | input (readings : List Reading)
  /-- Someone ends the program. -/
  | ended

namespace Invocation

/-- The path of the configuration file. -/
def configPath (i : Invocation) (home : String) : String :=
  i.configFile.getD (ChannelMap.defaultPath home)

/-- What the pins are driven through. -/
def hardware (i : Invocation) (tree : FileTree) : Hardware :=
  if i.isDryRun then .dryRun else .files (Path.ofString i.pinRoot) tree

/-- What comes before the first line: the map that was read is told, and its pins are set up. -/
def setUp (path : String) (map : ChannelMap) : Activity (Except LaunchError Unit) := do
  Activity.report (.loaded path map.leds.length)
  match ← Activity.configureAll map.pins with
  | some error => pure (.error (.outputs error))
  | none => pure (.ok ())

/-- Someone ends the program. -/
def breakOff (map : ChannelMap) : Activity Unit := do
  let _ ← Activity.shutDown map.pins

/-- Sets the pins up and lets a session take in lines up to the end. -/
def play (path : String) (map : ChannelMap) (ending : Ending) :
    Activity (Except LaunchError Unit) := do
  match ← setUp path map with
  | .error error => pure (.error error)
  | .ok _ =>
    Activity.report .readingPatterns
    match ending with
    | .input readings =>
      let ended ← (Session.start map).run readings
      pure (ended.2.mapError LaunchError.input)
    | .ended =>
      breakOff map
      pure (.ok ())

/-- Carries an invocation out on a tree, with the tree it leaves behind. -/
def carryOut (i : Invocation) (home : String) (tree : FileTree) (ending : Ending) :
    Except LaunchError Unit × FileTree :=
  let path := i.configPath home
  match ChannelMap.load tree path with
  | .error error => (.error (.config error), tree)
  | .ok map =>
    let played := (World.start (i.hardware tree)).run (play path map ending)
    (played.1, played.2.driver.tree?.getD tree)

end Invocation

/-- Launches the program on a tree, with what it says and the tree it leaves behind. -/
def launch (arguments : List String) (home : String) (tree : FileTree) (ending : Ending) :
    Farewell × FileTree :=
  match Invocation.ofArguments arguments with
  | .error stop => (stop.farewell, tree)
  | .ok invocation =>
    let ended := invocation.carryOut home tree ending
    (.ofResult ended.1, ended.2)

end LedSequencer
