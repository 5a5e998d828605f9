/-
  ShowRelay.Relay.Start

  Starting a relay: its destinations first, then the snapshot to begin with, and
  the listeners last, so that nobody can connect before the state is there.
-/

import ShowRelay.Config.Basic
import ShowRelay.Http.Route
import ShowRelay.Relay.Connection
import ShowRelay.Sink.Udp

namespace ShowRelay

/-- What a relay needs a socket for. -/
inductive Relay.Socket where
  | sink
  | webSocket
  | http
  deriving Repr, DecidableEq

/-- The name of a socket in errors. -/
def Relay.Socket.text : Socket → String
  | sink => "sink socket"
  | webSocket => "websocket listener"
  | http => "http listener"

/-- Why a relay could not start. -/
inductive Relay.StartError where
  | config (error : ConfigError)
  -- The snapshot to begin with could not be loaded.
  | restore (error : SnapshotError)
  | bind (socket : Relay.Socket) (fault : SystemFault)
  deriving Repr, DecidableEq

/-- The wording of an error. -/
def Relay.StartError.message : StartError → String
  | config error => error.message
  | restore error => "restore: " ++ error.message
  | bind socket fault => "bind " ++ socket.text ++ ": " ++ fault.message

/-- A running relay: the hub and the connections of all clients there ever were. -/
structure Relay where
  hub : Hub UdpSink
  -- How many messages can wait for one client.
  queueDepth : Nat
  connections : Table SessionId Connection
  nextNumber : Nat
  -- Whether the relay was not told to stop.
  running : Bool
  -- Whether the listener still accepts clients.
  listening : Bool
  -- Whether the hub still takes up events.
  attending : Bool

namespace Relay

/-- Whether a character ends a line. -/
def isLineEnd (c : Char) : Bool := c = '\n' || c = '\r'

/-- The text of a snapshot without the line ends at its end. -/
def withoutLineEnds (text : String) : String :=
  String.ofList (text.toList.reverse.dropWhile isLineEnd).reverse

/-- The store that a snapshot gives. -/
def restored (text : String) : Store := Store.ofMessage (withoutLineEnds text)

/-- What binding each kind of socket gives: the address, or a refusal. -/
abbrev Binding := Socket → Except SystemFault SocketAddress

/-- The address of a socket. -/
def bind (binding : Binding) (socket : Socket) : Except StartError SocketAddress :=
  (binding socket).mapError (.bind socket)

/-- The destinations of a relay. -/
def openSinks (hosts : HostLookup) (config : Config) (link : Link) (binding : Binding) :
    Except StartError (List UdpSink) := do
  let addresses ← (config.sinkAddresses hosts).mapError .config
  addresses.mapM fun target => do
    let _ ← bind binding .sink
    return { target, link }

/-- The store that a relay begins with, and what is noted about it. -/
def restore (config : Config) (archive : Archive) :
    Except StartError (Store × List LogRecord) :=
  match config.restore with
  | none => .ok (Store.blank, [])
  | some name => do
    let store := restored (← (archive.load name).mapError .restore)
    return (store, [⟨.info, "restored snapshot " ++ Text.quoted name ++ " (" ++ store.size.repr
      ++ " parameters)"⟩])

/-- A relay with some settings, which keeps its snapshots on a disk and runs as the
    process of the given number. -/
def start (hosts : HostLookup) (config : Config) (disk : Disk) (process : Nat) (link : Link)
    (binding : Binding) : Except StartError Relay := do
  let archive := Archive.ofDisk config.snapshotDir disk process
  let sinks ← openSinks hosts config link binding
  let forwarding := sinks.map fun sink =>
    ⟨.info, "forwarding updates to " ++ sink.description⟩
  let (store, restoring) ← restore config archive
  let webSocket ← bind binding .webSocket
  let http ← bind binding .http
  let listening := ⟨.info, "control sessions on ws://" ++ webSocket.text ++
    "/, state on http://" ++ http.text ++ Http.statePath⟩
  return {
    hub := { Hub.start store archive sinks with log := forwarding ++ restoring ++ [listening] }
    queueDepth := config.queueDepth
    connections := Table.empty
    nextNumber := 0
    running := true
    listening := true
    attending := true }

end Relay

end ShowRelay
