/-
  ShowRelay.Net.Link

  Whether anything can be sent at all. A datagram to port 0 is refused whatever
  the link; with the link down every other one is refused as well.
-/

import ShowRelay.Net.SocketAddress
import ShowRelay.SystemFault

namespace ShowRelay

/-- Whether the machine is connected to the network, its own addresses included. -/
inductive Link where
  | up
  | down
  deriving Repr, DecidableEq

namespace Link

/-- Why a connection or a datagram cannot leave, whoever would receive it. -/
def fault? : Link → Option SystemFault
  | up => none
  | down => some .networkUnreachable

/-- Why a datagram cannot be sent to an address. -/
def sendFault? (link : Link) (target : SocketAddress) : Option SystemFault :=
  if target.port = 0 then some .invalidArgument else link.fault?

end Link

end ShowRelay
