import LedSequencer.ChannelMap.Validation
import LedSequencer.FileTree
import LedSequencer.Text.Utf8

/-! # Channel maps in files -/

namespace LedSequencer

namespace ChannelMap

/-- The name of the configuration file that is looked for when none is given. -/
def fileName : String := ".pi-led.ini"

/-- The path of the configuration file in a home directory. -/
def defaultPath (home : String) : String := joinText home fileName

/-- The channel map that the bytes of a configuration file describe. -/
def ofBytes (path : String) (bytes : List UInt8) : Except ConfigError ChannelMap :=
  match textOfBytes? bytes with
  | some text => ofText text
  | none => .error (.unreadable path .notText)

/-- The channel map that a file describes, given what came of reading its bytes. -/
def ofReading (path : String) : Except Fault (List UInt8) → Except ConfigError ChannelMap
  | .ok bytes => ofBytes path bytes
  | .error fault => .error (.unreadable path fault)

/-- The channel map that a file of a tree describes. -/
def load (tree : FileTree) (path : String) : Except ConfigError ChannelMap :=
  ofReading path (tree.read (Path.ofString path))

end ChannelMap

end LedSequencer
