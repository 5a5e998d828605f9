/-
  ShowRelay.Main

  The program: reads the command line and the settings, starts a relay and plays
  the lines of the standard input to it as the messages of one client. Nothing
  leaves the machine, and snapshots are kept in memory; what the relay notes is
  written to the standard error stream, and its answers to the standard output.
-/

import ShowRelay.CommandLine
import ShowRelay.Relay.Performance

namespace ShowRelay.Program

/-! ## The command line -/

/-- The version of the program. -/
def version : String := "relay 0.1.0"

/-- How the program is used. -/
def usage : String := "\n".intercalate [
  "Laser control state relay",
  "",
  "Usage: relay [OPTIONS] [SINK_IP]",
  "",
  "  SINK_IP              primary OSC destination (default: 255.255.255.255)",
  "  --config FILE        JSON file with settings",
  "  --bind IP            listen address",
  "  --ws-port PORT       port for control clients",
  "  --http-port PORT     port for the state and the snapshots",
  "  --snapshot-dir DIR   folder of the snapshots",
  "  --sink HOST:PORT     OSC destination, may be repeated",
  "  --restore NAME       snapshot to begin with",
  "  -h, --help           print this text",
  "  -V, --version        print the version"]

/-- What is said about a command line that leads to no settings. -/
def stopText : CommandLine.Stop → String
  | .unknownArgument => "error: unexpected argument"
  | .missingValue => "error: a value is required"
  | .malformedValue => "error: invalid value"
  | .repeatedOption => "error: an option cannot be used multiple times"
  | .needlessValue => "error: unexpected value"
  | .help => usage
  | .version => version

/-- Whether the program was asked for a text and nothing is wrong. -/
def isRequest : CommandLine.Stop → Bool
  | .help | .version => true
  | _ => false

/-! ## Files -/

/-- The refusal that an error stands for. -/
def faultOf : IO.Error → SystemFault
  | .noFileOrDirectory .. => .notFound
  | .permissionDenied .. => .permissionDenied
  | .resourceExhausted .. => .noSpace
  | .alreadyExists .. => .alreadyExists
  | .inappropriateType .. => .isDirectory
  | .invalidArgument .. => .invalidArgument
  | _ => .inputOutput

/-- What reading a file gives. -/
def readContents (path : String) : IO Config.FileContents := do
  match ← (IO.FS.readBinFile path).toBaseIO with
  | .ok bytes => return .ok bytes.toList
  | .error e => return .error (faultOf e)

/-- The number under which the program writes to its disk, which no other process uses. -/
def process : Nat := 1

/-- A disk with the snapshot that the relay is to begin with, as far as there is one. -/
def restoredDisk (config : Config) : IO Disk := do
  let empty : Disk := { place := .absent }
  match config.restore.map SnapshotName.sanitize with
  | some (.ok name) =>
    match ← readContents (Archive.joinPath config.snapshotDir name.fileText) with
    | .ok bytes =>
      return { empty with place := .folder (Table.empty.insert name.fileName (.file bytes)) }
    | .error _ => return empty
  | _ => return empty

/-! ## The relay -/

/-- The sockets that a relay asks for, bound as the settings say. -/
def binding (config : Config) : Relay.Binding
  | .sink => .ok (.v4 .unspecified 0)
  | .webSocket => .ok (.ofIp config.bind config.wsPort)
  | .http => .ok (.ofIp config.bind config.httpPort)

/-- The name of the client that types. -/
def client : String := "console"

/-- The performance with nothing in its log, and what was in it. -/
def emptyLog (p : Performance) : List LogRecord × Performance :=
  let hub := p.relay.hub
  (hub.log, { p with relay := { p.relay with hub := { hub with log := [] } } })

/-- Writes what was noted and keeps the performance without it. -/
def flushLog (p : Performance) : IO Performance := do
  let (records, p) := emptyLog p
  for record in records do
    IO.eprintln record.line
  return p

/-- Plays every line of the input to the relay. -/
partial def playLines (input : IO.FS.Stream) (p : Performance) : IO Unit := do
  let line ← input.getLine
  if line.isEmpty then return
  match p.play (.send client (.text (Relay.withoutLineEnds line))) with
  | none => return
  | some (p, showing) =>
    let p ← flushLog p
    if let .handled answers _ := showing then
      for answer in answers do
        IO.println answer
    playLines input p

/-- Starts a relay and plays the input to it; the result is the exit code. -/
def serve (config : Config) : IO UInt32 := do
  let disk ← restoredDisk config
  match Relay.start HostLookup.numeric config disk process .up (binding config) with
  | .error e =>
    IO.eprintln (LogRecord.mk .error ("failed to start relay: " ++ e.message)).line
    return 1
  | .ok relay =>
    let p ← flushLog (Performance.start relay .up 0)
    match p.play (.connect client) with
    | none => return 1
    | some (p, _) =>
      playLines (← IO.getStdin) (← flushLog p)
      return 0

/-- Runs the program; the result is the exit code. -/
def run (arguments : List String) : IO UInt32 := do
  match CommandLine.ofArguments arguments with
  | .error stop =>
    if isRequest stop then
      IO.println (stopText stop)
      return 0
    IO.eprintln (stopText stop)
    return 2
  | .ok line =>
    let contents ← match line.config with
      | some path => readContents path
      | none => pure (.error .notFound)
    match line.configure HostLookup.numeric fun _ => contents with
    | .error e =>
      IO.eprintln (LogRecord.mk .error e.message).line
      return 1
    | .ok config => serve config

end ShowRelay.Program

/-- Runs the program with the arguments that it was given. -/
def main (arguments : List String) : IO UInt32 := ShowRelay.Program.run arguments
