import LedSequencer.Output.PinFiles
import LedSequencer.Text.Visible

/-! # The command line

  A command line is a list of arguments, read from left to right. An option with a
  value takes it from the same argument or from the next one that looks like no
  option. An option whose value may still follow is *pending*; it is settled by the
  next known option, or at the end, and an argument that nobody knows is refused
  without settling it. Help and version end the reading where they stand.
-/

namespace LedSequencer

/-! ### Options -/

/-- The options that take a value. -/
inductive ValueOption where
  /-- The configuration file. -/
  | configFile
  /-- The directory that shows the pins. -/
  | pinRoot
deriving DecidableEq

/-- The option as messages show it. -/
def ValueOption.display : ValueOption → String
  | .configFile => "--config-file <PATH>"
  | .pinRoot => "--gpio-root <PATH>"

/-- The options without a value. -/
inductive Switch where
  /-- Report pins instead of driving them. -/
  | dryRun
  /-- Show the help. -/
  | help
  /-- Show the version. -/
  | version
deriving DecidableEq

/-- The switch as messages show it. -/
def Switch.display : Switch → String
  | .dryRun => "--dry-run"
  | .help => "--help"
  | .version => "--version"

/-- An option of either kind. -/
inductive CommandOption where
  /-- One that takes a value. -/
  | valued (option : ValueOption)
  /-- One that takes none. -/
  | switch (switch : Switch)
deriving DecidableEq

/-- The option with a long name. -/
def CommandOption.ofLong? : String → Option CommandOption
  | "config-file" => some (.valued .configFile)
  | "gpio-root" => some (.valued .pinRoot)
  | "dry-run" => some (.switch .dryRun)
  | "help" => some (.switch .help)
  | "version" => some (.switch .version)
  | _ => none

/-- The option with a short name. -/
def CommandOption.ofShort? : Char → Option CommandOption
  | 'c' => some (.valued .configFile)
  | 'h' => some (.switch .help)
  | 'V' => some (.switch .version)
  | _ => none

/-! ### Arguments -/

/-- What an argument looks like. -/
inductive Argument where
  /-- Two hyphens: no options follow. -/
  | separator
  /-- A long name, perhaps with a value. -/
  | long (name : String) (value : Option String)
  /-- A short name, and what follows it in the same argument. -/
  | short (letter : Char) (rest : List Char)
  /-- Anything else; a single hyphen, too. -/
  | plain (text : String)
deriving DecidableEq

/-- Looks at an argument. -/
def Argument.ofString (text : String) : Argument :=
  match text.toList with
  | ['-', '-'] => .separator
  | '-' :: '-' :: rest =>
    let name := String.ofList (rest.takeWhile (· ≠ '='))
    match rest.dropWhile (· ≠ '=') with
    | [] => .long name none
    | _ :: value => .long name (some (String.ofList value))
  | '-' :: letter :: rest => .short letter rest
  | _ => .plain text

/-- The value that follows a short name in the same argument; an equals sign before it is left
    out. -/
def attachedValue? : List Char → Option String
  | [] => none
  | '=' :: value => some (String.ofList value)
  | value => some (String.ofList value)

/-! ### Reading -/

/-- What the program is asked to do. -/
structure Invocation where
  /-- The configuration file, if one was given. -/
  configFile : Option String
  /-- The directory that shows the pins. -/
  pinRoot : String
  /-- Whether pins are reported instead of driven. -/
  isDryRun : Bool
deriving DecidableEq

/-- Why a command line was refused. -/
inductive UsageError where
  /-- Nobody knows the argument. -/
  | unknownArgument (text : String)
  /-- An option has no value, or an empty one. -/
  | missingValue (option : ValueOption)
  /-- A switch was given a value. -/
  | needlessValue (value : String) (switch : Switch)
  /-- An option was given twice. -/
  | repeated (display : String)
deriving DecidableEq

/-- The message of a refused command line. It shows the visible part of what it quotes. -/
def UsageError.message : UsageError → String
  | .unknownArgument text => s!"error: unexpected argument '{visibleText text}' found"
  | .missingValue option =>
    s!"error: a value is required for '{option.display}' but none was supplied"
  | .needlessValue value switch =>
    let shown := visibleText value
    s!"error: unexpected value '{shown}' for '{switch.display}' found; no more were expected"
  | .repeated display => s!"error: the argument '{display}' cannot be used multiple times"

/-- Why a command line starts no sequencer. -/
inductive Stop where
  /-- The help is asked for. -/
  | help
  /-- The version is asked for. -/
  | version
  /-- The command line was refused. -/
  | misuse (error : UsageError)
deriving DecidableEq

/-- A command line under way. -/
structure CommandDraft where
  /-- The configuration file, once settled. -/
  configFile : Option String := none
  /-- The directory that shows the pins, once settled. -/
  pinRoot : Option String := none
  /-- Whether a dry run was asked for. -/
  isDryRun : Bool := false
  /-- The option that is pending, and its value if that has come. -/
  pending : Option (ValueOption × Option String) := none
deriving DecidableEq

namespace CommandDraft

/-- The value of an option so far. -/
def value? (d : CommandDraft) : ValueOption → Option String
  | .configFile => d.configFile
  | .pinRoot => d.pinRoot

/-- Gives an option its value. -/
def setValue (d : CommandDraft) (option : ValueOption) (value : String) : CommandDraft :=
  match option with
  | .configFile => { d with configFile := some value }
  | .pinRoot => { d with pinRoot := some value }

/-- Gives an option its value, which is not empty, for the first time. -/
def assign (d : CommandDraft) (option : ValueOption) (value : String) : Except Stop CommandDraft :=
  if (d.value? option).isSome then .error (.misuse (.repeated option.display))
  else if value = "" then .error (.misuse (.missingValue option))
  else .ok (d.setValue option value)

/-- Settles the pending option. -/
def settle (d : CommandDraft) : Except Stop CommandDraft :=
  match d.pending with
  | none => .ok d
  | some (option, none) => .error (.misuse (.missingValue option))
  | some (option, some value) => { d with pending := none }.assign option value

/-- Takes an option that takes a value, with the value if it is in the same argument. -/
def takeValued (d : CommandDraft) (option : ValueOption) (attached : Option String) :
    Except Stop CommandDraft := do
  let d ← d.settle
  match attached with
  | some value => d.assign option value
  | none => .ok { d with pending := some (option, none) }

/-- Takes a switch. -/
def takeSwitch (d : CommandDraft) (switch : Switch) : Except Stop CommandDraft := do
  let d ← d.settle
  match switch with
  | .help => .error .help
  | .version => .error .version
  | .dryRun =>
    if d.isDryRun then .error (.misuse (.repeated switch.display))
    else .ok { d with isDryRun := true }

/-- Takes an argument that looks like no option: a pending option without value gets it. -/
def takePlain (d : CommandDraft) (text : String) : Except Stop CommandDraft :=
  match d.pending with
  | some (option, none) => .ok { d with pending := some (option, some text) }
  | _ => .error (.misuse (.unknownArgument text))

/-- Reads arguments in order. After a separator every argument is unknown. -/
def read (d : CommandDraft) : List String → Except Stop CommandDraft
  | [] => d.settle
  | argument :: rest =>
    match Argument.ofString argument with
    | .separator =>
      match rest with
      | [] => d.settle
      | next :: _ => .error (.misuse (.unknownArgument next))
    | .long name value =>
      match CommandOption.ofLong? name, value with
      | none, _ => .error (.misuse (.unknownArgument ("--" ++ name)))
      | some (.valued option), attached => do
        let d ← d.takeValued option attached
        d.read rest
      | some (.switch switch), some value => .error (.misuse (.needlessValue value switch))
      | some (.switch switch), none => do
        let d ← d.takeSwitch switch
        d.read rest
    | .short letter attached =>
      match CommandOption.ofShort? letter with
      | none => .error (.misuse (.unknownArgument ("-" ++ letter.toString)))
      | some (.valued option) => do
        let d ← d.takeValued option (attachedValue? attached)
        d.read rest
      | some (.switch switch) => do
        let d ← d.takeSwitch switch
        d.read rest
    | .plain text => do
      let d ← d.takePlain text
      d.read rest

end CommandDraft

/-- Reads a command line. -/
def Invocation.ofArguments (arguments : List String) : Except Stop Invocation := do
  let d ← CommandDraft.read {} arguments
  .ok
    { configFile := d.configFile
      pinRoot := d.pinRoot.getD PinFiles.defaultRoot
      isDryRun := d.isDryRun }

/-! ### Texts -/

/-- The line that shows the version. -/
def versionText : String := "pi-led 0.1.0\n"

/-- The lines of the help. -/
def helpLines : List String :=
  ["Play LED patterns on GPIO pins",
    "",
    "Usage: pi-led [OPTIONS]",
    "",
    "Options:",
    "  -c, --config-file <PATH>  Configuration file mapping LEDs and channels to pins "
      ++ "[default: ~/.pi-led.ini]",
    "      --dry-run             Log pin changes instead of driving GPIO",
    "      --gpio-root <PATH>    Sysfs GPIO directory [default: /sys/class/gpio]",
    "  -h, --help                Print help",
    "  -V, --version             Print version"]

/-- The help. -/
def helpText : String := String.join (helpLines.map (· ++ "\n"))

end LedSequencer
