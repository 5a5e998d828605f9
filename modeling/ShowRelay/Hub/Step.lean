/-
  ShowRelay.Hub.Step

  The hub, its snapshot writer and the receivers of its sessions as they work
  side by side, one step of one of them at a time. A step that cannot be taken
  has no result.

  The hub visits the sessions of a round one after the other. Where there is
  room it puts the message down, where the receiver is gone it remembers the
  session, and where the queue is full it waits, for as long as it takes, until
  there is room or the receiver leaves. Sessions without a receiver are dropped
  only when the round is over, and before the update is passed on.
-/

import ShowRelay.Hub.Basic

namespace ShowRelay.Hub

/-! ## Rounds -/

/-- The round after the session that the hub is at. -/
def Round.next (round : Round) : Round :=
  { round with pending := round.pending.tail, waiting := false }

/-- The hub without a session whose receiver is gone. -/
def evict (hub : Hub σ) (id : SessionId) : Hub σ :=
  match hub.sessions.get? id with
  | none => hub
  | some session =>
    let hub := { hub with sessions := hub.sessions.erase id }
    hub.note .debug ("dropping " ++ id.text ++ " from " ++ session.peer ++ ": connection closed")

/-- The hub after an update was passed on to the destinations. -/
def forward [Sink σ] (hub : Hub σ) (raw : String) : Hub σ :=
  let (sinks, notes) := Sink.forwardAll raw hub.sinks
  { hub with sinks, log := hub.log ++ notes }

/-- The hub after a round in which every session was visited. -/
def conclude [Sink σ] (hub : Hub σ) (round : Round) : Hub σ :=
  let hub := round.failed.foldl evict { hub with round := none }
  match round.delivery with
  | .broadcast raw => hub.forward raw
  | .answer _ => hub

/-- The hub one step further in its round, unless it has to wait. -/
def proceed [Sink σ] (hub : Hub σ) : Option (Hub σ) := do
  let round ← hub.round
  match round.pending with
  | [] => some (hub.conclude round)
  | id :: _ =>
    match hub.mailboxOf? id with
    | none => some { hub with round := some round.next }
    | some (number, mailbox) =>
      if !mailbox.attended then
        some { hub with round := some { round.next with failed := round.failed ++ [id] } }
      else if mailbox.hasRoom then
        some { hub.changeMailbox number (·.put round.delivery) with round := some round.next }
      else if round.waiting then none
      else
        let hub := { hub with round := some { round with waiting := true } }
        some (hub.note .debug (id.text ++ ": outbound queue full, waiting for writer"))

/-! ## The snapshot writer -/

/-- The hub after the first snapshot on the list was written, or its writing has failed, with
    some replies of the system to its requests. The writer works as long as there is a hub
    and after that to the end of its list, so that it always gets to a job on the list. -/
def write (hub : Hub σ) (replies : List Saving.Reply) : Option (Hub σ) :=
  match hub.outcome, hub.jobs with
  | none, job :: jobs =>
    let (archive, result) := hub.archive.saveWith replies job.name.text job.contents
    let tag := match result with
      | .ok _ => Request.savedTag
      | .error _ => Request.saveFailedTag
    some { hub with archive, jobs, outcome := some ⟨job.mailbox, tag ++ job.name.text⟩ }
  | _, _ => none

/-- The hub after an answer was given, unless it has to wait. An answer that nobody
    can receive is dropped. -/
def answer (hub : Hub σ) : Option (Hub σ) := do
  let outcome ← hub.outcome
  let hub := { hub with outcome := none }
  match hub.mailboxes[outcome.mailbox]? with
  | none => some hub
  | some mailbox =>
    if !mailbox.attended then some hub
    else if mailbox.hasRoom then
      some (hub.changeMailbox outcome.mailbox (·.put (.answer outcome.text)))
    else none

/-! ## Receivers -/

/-- The hub after the receiver of a mailbox took the message that waited longest. -/
def take (hub : Hub σ) (number : Nat) : Option (Hub σ) := do
  let mailbox ← hub.mailboxes[number]?
  let mailbox ← mailbox.take?
  return { hub with mailboxes := hub.mailboxes.set number mailbox }

/-- The hub after the receiver of a mailbox without room for any message took the one
    that the hub holds out to it. -/
def meet (hub : Hub σ) (number : Nat) : Option (Hub σ) := do
  let round ← hub.round
  let id ← round.pending.head?
  let (held, mailbox) ← hub.mailboxOf? id
  if held = number ∧ mailbox.meets then
    return { hub.changeMailbox number (·.handOver round.delivery) with round := some round.next }
  else none

/-- The hub after the receiver of a mailbox without room for any message took the
    answer that the snapshot writer holds out to it. -/
def meetAnswer (hub : Hub σ) (number : Nat) : Option (Hub σ) := do
  let outcome ← hub.outcome
  let mailbox ← hub.mailboxes[number]?
  if outcome.mailbox = number ∧ mailbox.meets then
    let hub := hub.changeMailbox number (·.handOver (.answer outcome.text))
    return { hub with outcome := none }
  else none

/-- The hub after the receiver of a mailbox has left. -/
def leave (hub : Hub σ) (number : Nat) : Option (Hub σ) := do
  let mailbox ← hub.mailboxes[number]?
  if mailbox.attended then return hub.changeMailbox number Mailbox.leave else none

/-! ## Steps -/

/-- A step of the hub, of its snapshot writer or of a receiver. -/
inductive Action where
  -- The hub, when it is not in a round, takes up an event.
  | handle (event : Event)
  | proceed
  -- The snapshot writer makes the requests of a writing and gets some replies to them.
  | write (replies : List Saving.Reply)
  | answer
  -- A receiver takes a message from its queue.
  | take (mailbox : Nat)
  -- A receiver takes the message that the hub holds out.
  | meet (mailbox : Nat)
  -- A receiver takes the answer that the writer holds out.
  | meetAnswer (mailbox : Nat)
  | leave (mailbox : Nat)
  deriving Repr, DecidableEq

/-- What a step leads to, if it can be taken. -/
def step [Sink σ] (hub : Hub σ) : Action → Option (Hub σ)
  | .handle event => if hub.round.isNone then some (hub.handle event) else none
  | .proceed => hub.proceed
  | .write replies => hub.write replies
  | .answer => hub.answer
  | .take mailbox => hub.take mailbox
  | .meet mailbox => hub.meet mailbox
  | .meetAnswer mailbox => hub.meetAnswer mailbox
  | .leave mailbox => hub.leave mailbox

/-- What a sequence of steps leads to, if each of them can be taken. -/
def run [Sink σ] (hub : Hub σ) (actions : List Action) : Option (Hub σ) :=
  actions.foldlM step hub

theorem run_append [Sink σ] (hub : Hub σ) (first second : List Action) :
    hub.run (first ++ second) = (hub.run first).bind fun hub => hub.run second := by
  simp only [run, List.foldlM_append]
  rfl

end ShowRelay.Hub
