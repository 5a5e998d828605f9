/-
  ShowRelay.CommandLine

  The command line: options with two dashes, each but `--sink` at most once, and
  at most one plain argument, the primary destination. The value of an option
  stands after an equals sign or is the next argument, unless that begins with a
  dash; after a lone `--` every argument is plain.

  Arguments are read from left to right, and the first fault decides. A value
  that stands by itself is checked only when the next option, the next plain
  argument or the end is reached, so that a fault found on the way, such as an
  option that nobody knows, comes before it.
-/

import ShowRelay.Config.Document

namespace ShowRelay

/-! ## What can be said -/

/-- What a command line says about the settings. -/
structure CommandLine where
  -- The plain argument: the address that updates go to first.
  primarySink : Option IpAddress := none
  config : Option String := none
  bind : Option IpAddress := none
  wsPort : Option UInt16 := none
  -- The port for the state and the snapshots.
  httpPort : Option UInt16 := none
  snapshotDir : Option String := none
  sinks : List String := []
  restore : Option String := none
  deriving DecidableEq

namespace CommandLine

/-- What a value can be given to. -/
inductive Parameter where
  | primarySink
  | config
  | bind
  | wsPort
  | httpPort
  | snapshotDir
  | sink
  | restore
  deriving Repr, DecidableEq

/-- The parameters that are options, by name. -/
def options : List (String × Parameter) :=
  [("config", .config), ("bind", .bind), ("ws-port", .wsPort), ("http-port", .httpPort),
    ("snapshot-dir", .snapshotDir), ("sink", .sink), ("restore", .restore)]

/-- Why a command line says nothing about the settings. -/
inductive Stop where
  -- An argument is no option, and there is no room for it as a plain one.
  | unknownArgument
  -- An option has no value, or an empty one where it names a file.
  | missingValue
  -- A value is not of the form that its parameter asks for.
  | malformedValue
  | repeatedOption
  -- A value is given to an option that takes none.
  | needlessValue
  | help
  | version
  deriving Repr, DecidableEq

/-! ## Values -/

/-- A port; a zero may have a minus sign. -/
def port? (value : String) : Option UInt16 := do
  let n ← Text.integer? UInt16.size value.toList
  if 0 ≤ n then return UInt16.ofNat n.toNat else none

/-- A value that has to be of some form. -/
def formed (value : Option α) : Except Stop α :=
  match value with
  | some a => .ok a
  | none => .error .malformedValue

/-- The path of a file or folder. -/
def path (value : String) : Except Stop String :=
  if value.isEmpty then .error .missingValue else .ok value

/-- The value of a parameter that is given at most once. -/
def once (old : Option α) (value : Except Stop α) : Except Stop (Option α) :=
  if old.isSome then .error .repeatedOption else value.map some

/-- The command line with a value given to a parameter. -/
def give (line : CommandLine) (value : String) : Parameter → Except Stop CommandLine
  | .primarySink => do
    let ip ← once line.primarySink (formed (IpAddress.ofText? value))
    return { line with primarySink := ip }
  | .config => do return { line with config := ← once line.config (path value) }
  | .bind => do
    return { line with bind := ← once line.bind (formed (IpAddress.ofText? value)) }
  | .wsPort => do return { line with wsPort := ← once line.wsPort (formed (port? value)) }
  | .httpPort => do return { line with httpPort := ← once line.httpPort (formed (port? value)) }
  | .snapshotDir => do
    return { line with snapshotDir := ← once line.snapshotDir (path value) }
  | .sink => .ok { line with sinks := line.sinks ++ [value] }
  | .restore => do return { line with restore := ← once line.restore (.ok value) }

/-! ## Arguments -/

/-- An argument by its dashes. -/
inductive Argument where
  -- Two dashes alone: only plain arguments follow.
  | endOfOptions
  -- Two dashes, a name and perhaps a value.
  | long (name : String) (value : Option String)
  -- One dash and a letter, whatever follows it.
  | short (letter : Char)
  -- Anything else, a lone dash included.
  | plain (text : String)
  deriving Repr, DecidableEq

/-- The kind of an argument. -/
def Argument.ofText (text : String) : Argument :=
  match text.toList with
  | ['-', '-'] => endOfOptions
  | '-' :: '-' :: rest =>
    match Text.splitFirst? '=' rest with
    | some (name, value) => long (String.ofList name) (some (String.ofList value))
    | none => long (String.ofList rest) none
  | '-' :: letter :: _ => short letter
  | _ => plain text

/-- What is known after some of the arguments. -/
structure Reading where
  line : CommandLine := {}
  -- The parameter given last, with its value unless that is still to come.
  pending : Option (Parameter × Option String) := none
  -- Whether only plain arguments follow.
  onlyPlain : Bool := false
  -- Whether the plain argument was given.
  plainGiven : Bool := false

namespace Reading

/-- The reading after the parameter given last has received its value. -/
def settle (r : Reading) : Except Stop Reading :=
  match r.pending with
  | none => .ok r
  | some (_, none) => .error .missingValue
  | some (parameter, some value) => do
    return { r with line := ← r.line.give value parameter, pending := none }

/-- What is asked for instead of settings, once everything before it is in order. -/
def instead (r : Reading) (stop : Stop) : Except Stop Reading := do
  let _ ← r.settle
  throw stop

/-- The reading after a long option. -/
def long (r : Reading) (name : String) (value : Option String) : Except Stop Reading :=
  match options.lookup name, value with
  | some parameter, none => do
    return { ← r.settle with pending := some (parameter, none) }
  | some parameter, some value => do
    let r ← r.settle
    return { r with line := ← r.line.give value parameter }
  | none, none =>
    if name = "help" then r.instead .help
    else if name = "version" then r.instead .version
    else .error .unknownArgument
  | none, some _ =>
    if name = "help" ∨ name = "version" then .error .needlessValue else .error .unknownArgument

/-- The reading after a text that is a value or the plain argument. -/
def plain (r : Reading) (text : String) : Except Stop Reading :=
  match r.pending, r.onlyPlain with
  | some (parameter, none), false => .ok { r with pending := some (parameter, some text) }
  | _, _ =>
    if r.plainGiven then .error .unknownArgument
    else do
      return { ← r.settle with pending := some (.primarySink, some text), plainGiven := true }

/-- The reading after one more argument. -/
def step (r : Reading) (text : String) : Except Stop Reading :=
  match if r.onlyPlain then .plain text else Argument.ofText text with
  | .endOfOptions => .ok { r with onlyPlain := true }
  | .long name value => r.long name value
  | .short 'h' => r.instead .help
  | .short 'V' => r.instead .version
  | .short _ => .error .unknownArgument
  | .plain text => r.plain text

end Reading

/-- What a list of arguments says. -/
def ofArguments (arguments : List String) : Except Stop CommandLine := do
  let r ← arguments.foldlM Reading.step {}
  return (← r.settle).line

/-! ## Settings -/

/-- The settings with what the command line says in place of theirs. The primary
    destination is set after the list of all. -/
def override (line : CommandLine) (config : Config) : Config :=
  let config := if line.sinks.isEmpty then config else { config with sinks := line.sinks }
  let config := line.primarySink.elim config config.setPrimarySink
  { config with
    bind := line.bind.getD config.bind
    wsPort := line.wsPort.getD config.wsPort
    httpPort := line.httpPort.getD config.httpPort
    snapshotDir := line.snapshotDir.getD config.snapshotDir
    restore := line.restore.or config.restore }

/-- The settings of a command line, where `hosts` is how hosts are looked up and `files`
    what reading a path gives. Every destination has to stand for an address. -/
def configure (hosts : HostLookup) (files : String → Config.FileContents)
    (line : CommandLine) : Except ConfigError Config := do
  let base ← match line.config with
    | none => .ok Config.default
    | some path => Config.ofFile path (files path)
  let config := line.override base
  let _ ← config.sinkAddresses hosts
  return config

end CommandLine

end ShowRelay
