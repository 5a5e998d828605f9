/-
  ShowRelay.Relay.Connection

  One client's connection: a reader, which turns the client's frames into events
  for the hub, and a writer, which sends what the hub puts into the session's
  mailbox. When one of them ends, so does the other, and the disconnection is
  the last event that the hub gets from the connection.

  The events wait in the order in which they were given; between connections the
  hub may choose.
-/

import ShowRelay.Hub.Basic
import ShowRelay.Relay.Frame

namespace ShowRelay

/-- How far the reader of a connection is. -/
inductive Connection.Reader where
  -- The connection is accepted, and the opening exchange is under way.
  | greeting
  -- The opening exchange has failed; there is no session.
  | refused
  | reading
  -- It has stopped for a reason of its own, or else because the writer has ended.
  | ended (reason : Option SessionEnd)
  -- It has also given notice to the hub; the session was over for this reason.
  | done (reason : SessionEnd)
  deriving Repr, DecidableEq

/-- How far the writer of a connection is. -/
inductive Connection.Writer where
  | absent
  -- It sends what is put into the mailbox.
  | running
  | ended (reason : SessionEnd)
  deriving Repr, DecidableEq

/-- The connection of one client. -/
structure Connection where
  peer : String
  -- The frames that the client has sent and that are not read yet.
  incoming : List Frame := []
  reader : Connection.Reader := .greeting
  writer : Connection.Writer := .absent
  -- What the reader told the hub and the hub has not taken up yet.
  events : List Hub.Event := []
  -- The number of the session's mailbox, once the hub knows the session.
  mailbox : Option Nat := none
  -- The messages that were sent to the client, oldest first.
  written : List Delivery := []
  deriving DecidableEq

namespace Connection

/-- The connection after the client has sent a frame. -/
def send (c : Connection) (frame : Frame) : Connection :=
  { c with incoming := c.incoming ++ [frame] }

/-- The connection with one more event for the hub. -/
def tell (c : Connection) (event : Hub.Event) : Connection :=
  { c with events := c.events ++ [event] }

/-- The connection after the opening exchange has succeeded. -/
def greet (c : Connection) (id : SessionId) (depth : Nat) : Option Connection :=
  if c.reader = .greeting then
    some ({ c with reader := .reading, writer := .running }.tell (.connect id c.peer depth))
  else none

/-- The connection after the opening exchange has failed. -/
def refuse (c : Connection) : Option Connection :=
  if c.reader = .greeting then some { c with reader := .refused } else none

/-- The connection after its reader has read a frame. -/
def read (c : Connection) (id : SessionId) : Option Connection :=
  match c.reader, c.incoming with
  | .reading, frame :: incoming =>
    let c := { c with incoming }
    match frame with
    | .close => some { c with reader := .ended (some .clientClosed) }
    | .broken => some { c with reader := .ended (some .failed) }
    | frame =>
      match frame.message? with
      | some raw => some (c.tell (.message id raw))
      | none => some c
  | _, _ => none

/-- The connection after its reader has failed to read, whatever there was to be read. -/
def failRead (c : Connection) : Option Connection :=
  if c.reader = .reading then some { c with reader := .ended (some .failed) } else none

/-- The connection after its reader has noticed that the relay shuts down, or that the
    writer has ended. -/
def notice (c : Connection) (running : Bool) : Option Connection :=
  match c.reader, running, c.writer with
  | .reading, false, _ => some { c with reader := .ended (some .shutdown) }
  | .reading, true, .ended _ => some { c with reader := .ended none }
  | _, _, _ => none

/-- The connection after its reader, and before it the writer, has ended and the hub was
    told. -/
def finish (c : Connection) (id : SessionId) : Option Connection :=
  match c.reader, c.writer with
  | .ended reason, .ended other =>
    some ({ c with reader := .done (reason.getD other) }.tell (.disconnect id))
  | _, _ => none

/-- Why the writer may end at this moment, where `cut` says whether its mailbox will get
    no more messages. -/
def writerEnd? (c : Connection) (running cut : Bool) : Option SessionEnd :=
  match c.writer with
  | .running =>
    if !running then some .shutdown
    else if c.reader matches .ended _ then some .clientClosed
    else if cut then some .evicted
    else none
  | _ => none

end Connection

end ShowRelay
