/-
  ShowRelay.Relay.Frame

  What a client can put on a WebSocket, and what goes wrong for it there.
-/

import ShowRelay.Http.Route

namespace ShowRelay

/-- What a client puts on its WebSocket. -/
inductive Frame where
  | text (s : String)
  -- Bytes, which are a message where they are text.
  | binary (bytes : Bytes)
  -- A sign of life, which is no message.
  | control (bytes : Bytes)
  -- The announcement that it closes the connection.
  | close
  -- Bytes that break the protocol, or the end of the connection without any.
  | broken
  deriving Repr, DecidableEq

namespace Frame

/-- The message that a frame carries, if it does. -/
def message? : Frame → Option String
  | .text s => some s
  | .binary bytes => Utf8.decode? bytes
  | _ => none

/-- The number that marks an announcement to close, in the low half of the first byte. -/
def closeCode : UInt8 := 8

/-- What raw bytes that carry no message amount to. -/
def ofRaw (bytes : Bytes) : Frame :=
  if bytes.head?.any (· &&& 0x0F = closeCode) then close else broken

end Frame

/-- Why a session has ended. -/
inductive SessionEnd where
  | clientClosed
  | evicted
  | shutdown
  -- The connection failed, so that there is nothing left to close.
  | failed
  deriving Repr, DecidableEq

/-- What went wrong for a client. -/
inductive ClientError where
  | connect (fault : SystemFault)
  -- What answered is no relay for control clients, but gave a status over HTTP.
  | handshake (status : Nat)
  -- The relay has closed the connection.
  | closed
  -- The connection has ended without being closed.
  | cutOff
  deriving Repr, DecidableEq

namespace ClientError

/-- The wording of an error. -/
def message : ClientError → String
  | connect fault => "connect: " ++ fault.message
  | handshake status =>
    "websocket handshake: HTTP error: " ++ status.repr ++ " " ++ Http.Response.statusName status
  | closed => "websocket: Connection closed normally"
  | cutOff => "websocket: WebSocket protocol error: Connection reset without closing handshake"

/-- What a client finds at its next attempt to receive, after its session has ended. -/
def ofEnd : SessionEnd → ClientError
  | .failed => cutOff
  | _ => closed

end ClientError

end ShowRelay
