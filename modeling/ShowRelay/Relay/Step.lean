/-
  ShowRelay.Relay.Step

  A relay as all its parts work side by side, one step of one of them at a time:
  clients, the listener, the reader and the writer of each connection, the hub
  and its snapshot writer. A step that cannot be taken has no result.

  Once the relay is told to stop, the listener, the readers and the writers may
  end and the hub may leave its loop at any time, but each of them may also do
  some more of its work before it notices.
-/

import ShowRelay.Hub.Step
import ShowRelay.Relay.Start

namespace ShowRelay.Relay

/-- The relay with a changed connection. -/
def setConnection (relay : Relay) (id : SessionId) (c : Connection) : Relay :=
  { relay with connections := relay.connections.insert id c }

/-- The relay after a step of a connection by itself. -/
def change (relay : Relay) (id : SessionId) (step : Connection → Option Connection) :
    Option Relay := do
  let c ← relay.connections.get? id
  return relay.setConnection id (← step c)

/-! ## The listener -/

/-- The relay after a client was accepted, which gets a number that nobody had. -/
def accept (relay : Relay) (peer : String) : Option Relay :=
  if relay.listening then
    let relay := { relay with nextNumber := relay.nextNumber + 1 }
    some (relay.setConnection ⟨relay.nextNumber - 1⟩ { peer })
  else none

/-- The relay after the listener has left its loop. -/
def stopListener (relay : Relay) : Option Relay :=
  if relay.listening && !relay.running then some { relay with listening := false } else none

/-! ## Writers -/

/-- A running writer's mailbox, by number, and the message that waited longest in it. -/
def outgoing? (relay : Relay) (c : Connection) : Option (Nat × Delivery) := do
  if c.writer ≠ .running then none
  let number ← c.mailbox
  let mailbox ← relay.hub.mailboxes[number]?
  return (number, ← mailbox.queued.head?)

/-- The relay after the writer of a connection has sent a message. -/
def write (relay : Relay) (id : SessionId) : Option Relay := do
  let c ← relay.connections.get? id
  let (number, delivery) ← relay.outgoing? c
  let hub ← relay.hub.take number
  return { relay with hub }.setConnection id { c with written := c.written ++ [delivery] }

/-- The relay after the writer of a connection has ended. Nobody takes what is left in
    the mailbox. -/
def endWriter (relay : Relay) (id : SessionId) (c : Connection) (reason : SessionEnd) : Relay :=
  let hub := match c.mailbox with
    | some number => relay.hub.changeMailbox number Mailbox.leave
    | none => relay.hub
  { relay with hub }.setConnection id { c with writer := .ended reason }

/-- The relay after the writer of a connection could not send a message, which is lost. -/
def failWrite (relay : Relay) (id : SessionId) : Option Relay := do
  let c ← relay.connections.get? id
  let (number, _) ← relay.outgoing? c
  let hub ← relay.hub.take number
  return { relay with hub }.endWriter id c .failed

/-- The relay after the writer of a connection could not pass on what it has sent so far. -/
def failFlush (relay : Relay) (id : SessionId) : Option Relay := do
  let c ← relay.connections.get? id
  if c.writer = .running then relay.endWriter id c .failed else none

/-- Whether a mailbox can get no more messages: it is empty, no session has it, and no
    snapshot is to be answered there. -/
def isCut (relay : Relay) (number : Nat) : Bool :=
  let held := relay.attending && relay.hub.sessions.values.any (·.mailbox = number)
  let awaited := relay.hub.jobs.any (·.mailbox = number) ||
    relay.hub.outcome.any (·.mailbox = number)
  let waiting := relay.hub.mailboxes[number]?.any fun mailbox => !mailbox.queued.isEmpty
  !held && !awaited && !waiting

/-- The relay after the writer of a connection has ended for a reason other than a
    failure. -/
def stopWriter (relay : Relay) (id : SessionId) : Option Relay := do
  let c ← relay.connections.get? id
  let reason ← c.writerEnd? relay.running (c.mailbox.any relay.isCut)
  return relay.endWriter id c reason

/-! ## The hub -/

/-- The relay after the hub has taken up the first event of a connection. Where the
    writer has already ended, the new session's mailbox has no receiver. -/
def dispatch (relay : Relay) (id : SessionId) : Option Relay := do
  let c ← relay.connections.get? id
  let event ← c.events.head?
  if !relay.attending then none
  let number := relay.hub.mailboxes.length
  let hub ← relay.hub.step (.handle event)
  let c := { c with events := c.events.tail }
  match event, c.writer with
  | .connect _ _ _, .ended reason =>
    return { relay with hub }.endWriter id { c with mailbox := some number } reason
  | .connect _ _ _, _ =>
    return { relay with hub }.setConnection id { c with mailbox := some number }
  | _, _ => return { relay with hub }.setConnection id c

/-- A step that the hub or its snapshot writer takes by itself. -/
inductive HubWork where
  | proceed
  | write (replies : List Saving.Reply)
  | answer
  deriving Repr, DecidableEq

/-- The step of the hub that a piece of work is. -/
def HubWork.action : HubWork → Hub.Action
  | proceed => .proceed
  | write replies => .write replies
  | answer => .answer

/-- The relay after the hub has left its loop, which it does only between events. -/
def stopHub (relay : Relay) : Option Relay :=
  if relay.attending && !relay.running && relay.hub.round.isNone then
    some { relay with attending := false }
  else none

/-! ## Steps -/

/-- A step of a part of the relay or of a client. -/
inductive Action where
  | accept (peer : String)
  -- The opening exchange with a client succeeds.
  | greet (id : SessionId)
  -- The opening exchange with a client fails.
  | refuse (id : SessionId)
  | send (id : SessionId) (frame : Frame)
  | read (id : SessionId)
  -- A reader finds the connection broken.
  | failRead (id : SessionId)
  -- A reader notices that it is to end.
  | notice (id : SessionId)
  -- A reader that has ended, like the writer, tells the hub.
  | finish (id : SessionId)
  | write (id : SessionId)
  -- A writer fails to send a message, and ends.
  | failWrite (id : SessionId)
  -- A writer fails to pass on what it has sent, and ends.
  | failFlush (id : SessionId)
  | stopWriter (id : SessionId)
  -- The hub takes up an event of a connection.
  | dispatch (id : SessionId)
  -- The hub or its snapshot writer goes on.
  | hub (work : HubWork)
  | stop
  | stopListener
  | stopHub
  deriving Repr, DecidableEq

/-- What a step leads to, if it can be taken. -/
def step (relay : Relay) : Action → Option Relay
  | .accept peer => relay.accept peer
  | .greet id => relay.change id fun c => c.greet id relay.queueDepth
  | .refuse id => relay.change id Connection.refuse
  | .send id frame => relay.change id fun c => some (c.send frame)
  | .read id => relay.change id fun c => c.read id
  | .failRead id => relay.change id Connection.failRead
  | .notice id => relay.change id fun c => c.notice relay.running
  | .finish id => relay.change id fun c => c.finish id
  | .write id => relay.write id
  | .failWrite id => relay.failWrite id
  | .failFlush id => relay.failFlush id
  | .stopWriter id => relay.stopWriter id
  | .dispatch id => relay.dispatch id
  | .hub work => do return { relay with hub := ← relay.hub.step work.action }
  | .stop => some { relay with running := false }
  | .stopListener => relay.stopListener
  | .stopHub => relay.stopHub

/-- What a sequence of steps leads to, if each of them can be taken. -/
def run (relay : Relay) (actions : List Action) : Option Relay := actions.foldlM step relay

end ShowRelay.Relay
