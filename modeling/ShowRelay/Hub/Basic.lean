/-
  ShowRelay.Hub.Basic

  The hub between control clients and destinations, as far as its own data go.
  It takes up one event at a time. An update is merged into the store and then
  begins a round: it is offered to every other open session, in the order of
  their numbers, and once all were visited it is passed on to the destinations.
  A save puts a job on the list of the snapshot writer, with the contents that
  the store has at that moment.

  New sessions start blank: the hub sends them nothing on connection.
-/

import ShowRelay.Mailbox
import ShowRelay.Request
import ShowRelay.Session
import ShowRelay.Sink.Basic
import ShowRelay.Snapshot.Archive

namespace ShowRelay

/-- An open session. -/
structure Hub.Registration where
  peer : String
  mailbox : Nat
  deriving Repr, DecidableEq

/-- A message on its way to sessions. -/
structure Hub.Round where
  delivery : Delivery
  -- The sessions that are still to be offered it; the hub is at the first.
  pending : List SessionId
  -- Whether the hub waits for room in the queue of the first.
  waiting : Bool := false
  -- The sessions whose receiver was gone.
  failed : List SessionId := []
  deriving Repr, DecidableEq

/-- A snapshot that is to be written. -/
structure Hub.Job where
  name : SnapshotName
  contents : String
  -- The number of the mailbox that gets the answer.
  mailbox : Nat
  deriving DecidableEq

/-- An answer that the snapshot writer is about to give. -/
structure Hub.Outcome where
  -- The number of the mailbox that gets it.
  mailbox : Nat
  text : String
  deriving Repr, DecidableEq

/-- The hub together with its snapshot writer. -/
structure Hub (σ : Type) where
  store : Store
  sessions : Table SessionId Hub.Registration
  -- The mailboxes of all registrations there ever were, by number.
  mailboxes : List Mailbox
  -- The message that is being offered, if the hub is at work.
  round : Option Hub.Round
  -- The snapshots still to be written, in the order in which they were asked for.
  jobs : List Hub.Job
  -- The answer to the last snapshot written, until it is given.
  outcome : Option Hub.Outcome
  archive : Archive
  sinks : List σ
  log : List LogRecord

namespace Hub

/-- A hub that no session has connected to yet. -/
def start (store : Store) (archive : Archive) (sinks : List σ) : Hub σ where
  store
  sessions := Table.empty
  mailboxes := []
  round := none
  jobs := []
  outcome := none
  archive
  sinks
  log := []

/-- Whether a session is open. -/
def isOpen (hub : Hub σ) (id : SessionId) : Bool := hub.sessions.contains id

/-- The number of open sessions. -/
def sessionCount (hub : Hub σ) : Nat := hub.sessions.size

/-- The mailbox of an open session, with its number. -/
def mailboxOf? (hub : Hub σ) (id : SessionId) : Option (Nat × Mailbox) := do
  let session ← hub.sessions.get? id
  let mailbox ← hub.mailboxes[session.mailbox]?
  return (session.mailbox, mailbox)

/-- The hub with one more thing noted. -/
def note (level : LogLevel) (text : String) (hub : Hub σ) : Hub σ :=
  { hub with log := hub.log ++ [⟨level, text⟩] }

/-- The hub with a change to the mailbox of a number. -/
def changeMailbox (number : Nat) (change : Mailbox → Mailbox) (hub : Hub σ) : Hub σ :=
  { hub with mailboxes := hub.mailboxes.modify number change }

/-! ## Events -/

/-- What can happen to a session. -/
inductive Event where
  -- It connects, with a queue of some depth. A session that is open under the same
  -- number is replaced.
  | connect (id : SessionId) (peer : String) (depth : Nat)
  | message (id : SessionId) (raw : String)
  | disconnect (id : SessionId)
  deriving Repr, DecidableEq

/-- The hub after a session has connected. -/
def connect (hub : Hub σ) (id : SessionId) (peer : String) (depth : Nat) : Hub σ :=
  let replaced := hub.sessions.get? id
  let hub := hub.note .info (id.text ++ " connected from " ++ peer)
  let hub := { hub with
    sessions := hub.sessions.insert id ⟨peer, hub.mailboxes.length⟩
    mailboxes := hub.mailboxes ++ [{ depth }] }
  match replaced with
  | none => hub
  | some old =>
    hub.note .warn (id.text ++ " re-registered, replacing session from " ++ old.peer)

/-- The hub after it has begun with the update of an open session. -/
def update (hub : Hub σ) (sender : SessionId) (raw : String) : Hub σ :=
  let hub := { hub with store := hub.store.merge (Delta.decode raw) }
  let hub := hub.note .debug (sender.text ++ ": " ++ raw)
  let hub := hub.note .debug ("state: " ++ hub.store.text)
  let others := hub.sessions.keys.filter (· ≠ sender)
  { hub with round := some ⟨.broadcast raw, others, false, []⟩ }

/-- The hub after it was asked for a snapshot by an open session, whose answer goes to
    the mailbox that the session has now. A refused name is answered at once. -/
def save (hub : Hub σ) (sender : SessionId) (mailbox : Nat) (name : String) : Hub σ :=
  match SnapshotName.sanitize name with
  | .error e =>
    let hub := hub.note .warn (sender.text ++ ": " ++ e.message)
    { hub with round := some ⟨.answer Request.saveFailedTag, [sender], false, []⟩ }
  | .ok name =>
    let hub := hub.note .info
      (sender.text ++ ": saving snapshot " ++ Text.quoted name.text)
    { hub with jobs := hub.jobs ++ [⟨name, Archive.contentsOf hub.store, mailbox⟩] }

/-- The hub after a message has arrived. Messages of sessions that are not open are
    ignored. -/
def message (hub : Hub σ) (id : SessionId) (raw : String) : Hub σ :=
  match hub.sessions.get? id with
  | none => hub.note .debug ("ignoring message from closed " ++ id.text)
  | some session =>
    match Request.classify raw with
    | .save name => hub.save id session.mailbox name
    | .update raw => hub.update id raw

/-- The hub after a session has gone; what still waits for it is never taken. -/
def disconnect (hub : Hub σ) (id : SessionId) : Hub σ :=
  match hub.sessions.get? id with
  | none => hub
  | some session =>
    let hub := { hub with sessions := hub.sessions.erase id }
    hub.note .info (id.text ++ " from " ++ session.peer ++ " disconnected")

/-- The hub after it has taken up an event. -/
def handle (hub : Hub σ) : Event → Hub σ
  | .connect id peer depth => hub.connect id peer depth
  | .message id raw => hub.message id raw
  | .disconnect id => hub.disconnect id

/-! ## Accepted updates -/

/-- The update that the hub accepts with an event: the message of an open session that
    asks for no snapshot. -/
def accepted? (hub : Hub σ) : Event → Option String
  | .message id raw =>
    match hub.isOpen id, Request.classify raw with
    | true, .update raw => some raw
    | _, _ => none
  | _ => none

/-- Accepted updates are merged, and nothing else changes the store. -/
theorem store_handle (hub : Hub σ) (event : Event) :
    (hub.handle event).store =
      (hub.accepted? event).elim hub.store fun raw => hub.store.merge (Delta.decode raw) := by
  cases event with
  | connect id peer depth =>
    simp only [handle, connect, accepted?]
    split <;> rfl
  | disconnect id =>
    simp only [handle, disconnect, accepted?]
    split <;> rfl
  | message id raw =>
    have hopen : hub.isOpen id = (hub.sessions.get? id).isSome := rfl
    simp only [handle, message, accepted?, hopen]
    cases hub.sessions.get? id with
    | none => rfl
    | some session =>
      cases Request.classify raw with
      | save name =>
        simp only [save]
        split <;> rfl
      | update raw => rfl

end Hub

end ShowRelay
