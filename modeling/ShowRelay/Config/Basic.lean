/-
  ShowRelay.Config.Basic

  The settings of a relay, and the addresses that its list of destinations
  stands for. A destination that is no address names a host, and which addresses
  a host has is up to the machine that looks it up.
-/

import ShowRelay.Json.Fault
import ShowRelay.Net.SocketAddress
import ShowRelay.SystemFault
import ShowRelay.Text.Cut

namespace ShowRelay

/-! ## Destinations -/

/-- How a machine looks up hosts: the addresses that a host stands for at a port, in the
    order in which the machine gives them. A look-up that fails gives none. -/
abbrev HostLookup := String → UInt16 → List SocketAddress

/-- The look-up of a machine that knows no names: an IP address stands for itself. -/
def HostLookup.numeric : HostLookup := fun host port =>
  ((IpAddress.ofText? host).map fun ip => .ofIp ip port).toList

namespace Sink

/-- The port of a destination that names none. -/
def defaultPort : UInt16 := 60000

/-- The first address of a host at a port, which the last colon separates. The port may
    have a plus sign, and a host that holds a zero character is not looked up. -/
def lookUp? (hosts : HostLookup) (target : List Char) : Option SocketAddress := do
  let (host, port) ← Text.splitLast? ':' target
  let port ← Text.unsigned? UInt16.size port
  if host.contains '\x00' then none
  else (hosts (String.ofList host) (UInt16.ofNat port)).head?

/-- The address that a destination stands for: an IP address with the default port, or
    a socket address, or what looking up a host gives. Hosts are looked up last, so that
    addresses stand for themselves on every machine. -/
def resolve? (hosts : HostLookup) (target : String) : Option SocketAddress :=
  match IpAddress.ofChars? target.toList with
  | some ip => some (.ofIp ip defaultPort)
  | none =>
    (SocketAddress.ofChars? target.toList).orElse fun _ => lookUp? hosts target.toList

end Sink

/-! ## Settings -/

/-- Why there are no settings. -/
inductive ConfigError where
  | io (path : String) (fault : SystemFault)
  | json (fault : Json.Fault)
  -- A destination stands for no address.
  | invalidSink (target : String)
  deriving Repr, DecidableEq

/-- The wording of an error. -/
def ConfigError.message : ConfigError → String
  | io path fault => "config: read " ++ path ++ ": " ++ fault.message
  | json fault => "config: parse json: " ++ fault.message
  | invalidSink target => "config: invalid sink address " ++ Text.quoted target

/-- The address that a destination stands for, or the refusal of it. -/
def Sink.resolve (hosts : HostLookup) (target : String) : Except ConfigError SocketAddress :=
  match Sink.resolve? hosts target with
  | some a => .ok a
  | none => .error (.invalidSink target)

/-- The settings of a relay. -/
structure Config where
  bind : IpAddress
  -- The port for control clients; any free one where it is zero.
  wsPort : UInt16
  -- The port for the state and the snapshots; any free one where it is zero.
  httpPort : UInt16
  snapshotDir : String
  sinks : List String
  -- How many messages wait for one session before the relay waits with them.
  outboundQueueDepth : UInt64
  -- How long a write to a session may take, in milliseconds.
  writeTimeoutMs : UInt64
  -- How often an idle loop looks around, in milliseconds.
  pollIntervalMs : UInt64
  restore : Option String
  deriving DecidableEq

namespace Config

/-- The settings of a relay about which nothing is said: updates go to the whole
    local network and to the machine itself. -/
def default : Config where
  bind := .v4 .unspecified
  wsPort := 8081
  httpPort := 8080
  snapshotDir := "presets"
  sinks := ["255.255.255.255:60000", "127.0.0.1:60000"]
  outboundQueueDepth := 256
  writeTimeoutMs := 5000
  pollIntervalMs := 20
  restore := none

instance : Inhabited Config := ⟨default⟩

/-- The settings with the first destination replaced by an address at the default
    port; where there are no destinations it becomes the only one. -/
def setPrimarySink (config : Config) (ip : IpAddress) : Config :=
  { config with
    sinks := (SocketAddress.ofIp ip Sink.defaultPort).text :: config.sinks.drop 1 }

/-- The addresses of all destinations, or the refusal of the first that has none. -/
def sinkAddresses (hosts : HostLookup) (config : Config) :
    Except ConfigError (List SocketAddress) :=
  config.sinks.mapM (Sink.resolve hosts)

/-- How long a write may take, in milliseconds. -/
def writeTimeout (config : Config) : Nat := config.writeTimeoutMs.toNat

/-- How often an idle loop looks around, in milliseconds: at least one, or it would
    not rest. -/
def pollInterval (config : Config) : Nat := max config.pollIntervalMs.toNat 1

/-- How many messages may wait for one session: at least one. -/
def queueDepth (config : Config) : Nat := max config.outboundQueueDepth.toNat 1

end Config

end ShowRelay
