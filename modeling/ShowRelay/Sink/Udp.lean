/-
  ShowRelay.Sink.Udp

  Destinations that receive every update as one OSC datagram. An update that has
  no packet is left out. The first of several failures in a row is a warning, so
  that a destination that stays unreachable does not flood the log.
-/

import ShowRelay.Net.Link
import ShowRelay.Osc
import ShowRelay.Sink.Basic

namespace ShowRelay

/-- A socket that sends to one address. -/
structure UdpSink where
  target : SocketAddress
  link : Link
  -- Whether the last datagram could not be sent.
  failing : Bool := false
  -- The datagrams that were sent, oldest first.
  sent : List Bytes := []

namespace UdpSink

/-- The destination as it is shown. -/
def description (sink : UdpSink) : String :=
  "udp://" ++ sink.target.text ++ Osc.updateAddress

/-- The datagram of an update. -/
def packet (raw : String) : Except Osc.EncodeError Bytes := Osc.encode ⟨Osc.updateAddress, raw⟩

/-- The socket after a packet was handed to it, and what is noted. -/
def send (packet : Bytes) (sink : UdpSink) : UdpSink × List LogRecord :=
  match sink.link.sendFault? sink.target with
  | none =>
    let notes := if sink.failing then
        [⟨.info, "sink " ++ sink.target.text ++ " is reachable again"⟩] else []
    ({ sink with failing := false, sent := sink.sent ++ [packet] }, notes)
  | some fault =>
    let level := if sink.failing then LogLevel.debug else .warn
    ({ sink with failing := true },
      [⟨level, "sink " ++ sink.target.text ++ ": " ++ fault.message⟩])

/-- The socket after an update was passed on to it, and what is noted. -/
def forward (raw : String) (sink : UdpSink) : UdpSink × List LogRecord :=
  match packet raw with
  | .error e =>
    (sink, [⟨.warn, "not forwarding update to " ++ sink.target.text ++ ": " ++ e.message⟩])
  | .ok packet => sink.send packet

instance : Sink UdpSink := ⟨forward⟩

/-- What a listener at the target gets of each of some updates. There is no telling where
    nothing can reach the listener: a datagram may then be lost or only late. -/
def arrivals (sink : UdpSink) : List String → Option (List (List Bytes))
  | [] => some []
  | raw :: raws => do
    if (sink.link.sendFault? sink.target).isSome then none
    let (next, _) := sink.forward raw
    return next.sent.drop sink.sent.length :: (← next.arrivals raws)

end UdpSink

end ShowRelay
