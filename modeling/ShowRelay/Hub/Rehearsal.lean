/-
  ShowRelay.Hub.Rehearsal

  Playing a list of cues to a hub without a network, one after the other, where
  the behaviour of every receiver is laid down beforehand. After each cue the
  hub, its snapshot writer and the receivers go on until none of them can, so
  that each cue is seen complete.
-/

import ShowRelay.Hub.Step
import ShowRelay.Http.Route

namespace ShowRelay

/-! ## Receivers -/

/-- How a receiver behaves. -/
inductive Attendance where
  -- It takes messages only when told to.
  | patient
  -- It takes every message as soon as it can.
  | eager
  -- It takes so many messages as soon as it can, and leaves.
  | brief (count : Nat)
  deriving Repr, DecidableEq

namespace Attendance

/-- What the receiver of a mailbox may do by itself, best first; `meeting` tells whether
    a message is held out to it. -/
def actions (number : Nat) (mailbox : Mailbox) (meeting : Bool) : Attendance → List Hub.Action
  | patient => []
  | eager => taking
  | brief count => if mailbox.taken.length < count then taking else [.leave number]
where
  taking : List Hub.Action :=
    (if mailbox.queued.isEmpty then [] else [.take number]) ++
      (if meeting then [.meet number, .meetAnswer number] else [])

end Attendance

/-- The receiving end of a session. -/
structure Rehearsal.Receiver where
  mailbox : Nat
  attendance : Attendance
  -- How many of the messages it has taken were already shown.
  shown : Nat := 0

/-- A hub that is being played to. -/
structure Rehearsal where
  hub : Hub Recorder
  -- How the receiver of each mailbox behaves, by number.
  attendances : List Attendance
  -- The receiving ends that are still of interest.
  receivers : Table SessionId Rehearsal.Receiver

namespace Rehearsal

/-- The hub before the first cue, with some destinations that record what they get. -/
def start (archive : Archive) (sinks : Nat) : Rehearsal where
  hub := Hub.start Store.blank archive (List.replicate sinks {})
  attendances := []
  receivers := Table.empty

/-! ## Coming to rest -/

/-- The numbers of the mailboxes to which the hub or the snapshot writer may hold out
    a message. -/
def heldOut (hub : Hub Recorder) : List Nat :=
  let met := do hub.mailboxOf? (← (← hub.round).pending.head?)
  (met.map Prod.fst).toList ++ (hub.outcome.map Hub.Outcome.mailbox).toList

/-- What can go on by itself, best first: receivers, the hub, the snapshot writer. -/
def actions (attendances : List Attendance) (hub : Hub Recorder) : List Hub.Action :=
  let heldOut := heldOut hub
  let receivers := (attendances.zip hub.mailboxes).zipIdx.flatMap fun
    | ((attendance, mailbox), number) =>
      if mailbox.attended then attendance.actions number mailbox (heldOut.contains number) else []
  receivers ++ [.proceed, .answer, .write []]

/-- The hub after at most `steps` steps that were taken by themselves. -/
def settleWithin (attendances : List Attendance) :
    (steps : Nat) → Hub Recorder → Hub Recorder
  | 0, hub => hub
  | steps + 1, hub =>
    match (actions attendances hub).findSome? hub.step with
    | none => hub
    | some hub => settleWithin attendances steps hub

/-- How many steps there can be before nothing goes on by itself: for every message at
    most a wait, a delivery and a taking, and one leave for every receiver. Patient
    receivers take nothing by themselves. -/
def stepBound (attendances : List Attendance) (hub : Hub Recorder) : Nat :=
  let pending := hub.round.elim 0 fun round => round.pending.length + 1
  let queued := (attendances.zip hub.mailboxes).foldl
    (fun n (attendance, mailbox) =>
      if attendance = .patient then n else n + mailbox.queued.length + 1) 0
  4 * (pending + queued + hub.jobs.length + 1)

/-- The rehearsal at rest. -/
def settle (r : Rehearsal) : Rehearsal :=
  { r with hub := settleWithin r.attendances (stepBound r.attendances r.hub) r.hub }

/-- The rehearsal after a step that has to be possible. -/
def act (r : Rehearsal) (action : Hub.Action) : Option Rehearsal := do
  return { r with hub := ← r.hub.step action }

/-- The rehearsal at rest after a step that may be impossible. -/
def attempt (r : Rehearsal) (action : Hub.Action) : Rehearsal := ((r.act action).getD r).settle

/-- The rehearsal at rest after an event was handled to its end; the hub may wait for
    the given receivers, which then leave. -/
def event (r : Rehearsal) (event : Hub.Event) (leaving : List Nat) : Option Rehearsal := do
  let r := (← r.act (.handle event)).settle
  let r := leaving.foldl (fun r number => r.attempt (.leave number)) r
  if r.hub.round.isNone then return r else none

/-! ## Receivers told what to do -/

/-- The mailbox of a receiver. -/
def mailboxOf (r : Rehearsal) (receiver : Receiver) : Option Mailbox :=
  r.hub.mailboxes[receiver.mailbox]?

/-- The rehearsal after a patient receiver took everything that waits for it. -/
def collect (r : Rehearsal) (id : SessionId) : Rehearsal :=
  match r.receivers.get? id with
  | some ⟨number, .patient, _⟩ =>
    let queued := (r.hub.mailboxes[number]?).elim 0 fun mailbox => mailbox.queued.length
    (List.replicate queued (Hub.Action.take number)).foldl attempt r
  | _ => r

/-- The texts that a receiver has taken and that were not shown yet. -/
def unshown (r : Rehearsal) (receiver : Receiver) : List String :=
  (r.mailboxOf receiver).elim [] fun mailbox =>
    (mailbox.taken.drop receiver.shown).map Delivery.text

/-- The rehearsal when all that a receiver has taken was shown. -/
def markShown (r : Rehearsal) (id : SessionId) (receiver : Receiver) : Rehearsal :=
  let shown := (r.mailboxOf receiver).elim 0 fun mailbox => mailbox.taken.length
  { r with receivers := r.receivers.insert id { receiver with shown } }

/-! ## Cues -/

/-- One thing to be played. -/
inductive Cue where
  | connect (id : SessionId) (peer : String) (depth : Nat) (attendance : Attendance)
  -- A session sends a message. If the hub has to wait for some receivers, they leave.
  | message (id : SessionId) (raw : String) (leaving : List SessionId)
  | disconnect (id : SessionId)
  | leave (id : SessionId)
  -- A patient receiver takes what waits, and everything since the last time is shown.
  | drain (id : SessionId)
  -- A session is gone together with its receiver. If that is not patient, all it got is
  -- shown.
  | finish (id : SessionId)
  | files
  | load (name : String)
  | fetch (url : String)
  -- What the destinations got since the last time is shown.
  | recorded

/-- What a cue shows, apart from the hub itself. -/
inductive Showing where
  | nothing
  | received (texts : List String)
  | files (place : Place)
  | loaded (result : Except SnapshotError String)
  | answered (response : Http.Response)
  | recorded (updates : List (List String))

/-- The mailboxes of the patient receivers of some sessions. -/
def patientMailboxes (r : Rehearsal) (ids : List SessionId) : List Nat :=
  ids.filterMap fun id =>
    match r.receivers.get? id with
    | some ⟨number, .patient, _⟩ => some number
    | _ => none

/-- The rehearsal after a patient receiver has left. -/
def dismiss (r : Rehearsal) (id : SessionId) : Rehearsal :=
  (r.patientMailboxes [id]).foldl (fun r number => r.attempt (.leave number)) r

/-- The rehearsal after a message of a session, which takes what waits for it before
    and, if it has asked for a snapshot, also after. -/
def message (r : Rehearsal) (id : SessionId) (raw : String) (leaving : List SessionId) :
    Option Rehearsal := do
  let r := r.collect id
  let asks := r.hub.isOpen id && (Request.classify raw matches .save _)
  let r ← r.event (.message id raw) (r.patientMailboxes leaving)
  return if asks then r.collect id else r

/-- What the destinations have got, and the rehearsal when that was shown. -/
def emptyRecorders (r : Rehearsal) : List (List String) × Rehearsal :=
  (r.hub.sinks.map Recorder.received,
    { r with hub := { r.hub with sinks := r.hub.sinks.map fun _ => {} } })

/-- The rehearsal after a cue, and what the cue shows. There is none if the hub would
    wait for ever. -/
def play (r : Rehearsal) : Cue → Option (Rehearsal × Showing)
  | .connect id peer depth attendance => do
    let number := r.hub.mailboxes.length
    let r := { r with
      attendances := r.attendances ++ [attendance]
      receivers := r.receivers.insert id { mailbox := number, attendance } }
    return (← r.event (.connect id peer depth) [], .nothing)
  | .message id raw leaving => do return (← r.message id raw leaving, .nothing)
  | .disconnect id => do return (← r.event (.disconnect id) [], .nothing)
  | .leave id => some (r.dismiss id, .nothing)
  | .drain id =>
    match r.receivers.get? id with
    | some receiver@⟨_, .patient, _⟩ =>
      let r := r.collect id
      some (r.markShown id receiver, .received (r.unshown receiver))
    | _ => some (r, .nothing)
  | .finish id => do
    let r ← r.event (.disconnect id) []
    let showing := match r.receivers.get? id with
      | some ⟨_, .patient, _⟩ | none => .nothing
      | some receiver => .received (r.unshown receiver)
    let r := r.dismiss id
    return ({ r with receivers := r.receivers.erase id }, showing)
  | .files => some (r, .files r.hub.archive.place)
  | .load name => some (r, .loaded (r.hub.archive.load name))
  | .fetch url =>
    let (response, notes) := Http.route r.hub.store r.hub.archive ⟨"GET", url⟩
    some ({ r with hub := { r.hub with log := r.hub.log ++ notes } }, .answered response)
  | .recorded =>
    let (updates, r) := r.emptyRecorders
    some (r, .recorded updates)

/-! ## Reports -/

/-- What there is to see after a cue. -/
structure Report where
  -- The open sessions with a receiving end of interest, in ascending order.
  openSessions : List SessionId
  count : Nat
  dump : String
  notes : List LogRecord
  showing : Showing

/-- The rehearsal after a cue with nothing in its log, and the report. -/
def perform (r : Rehearsal) (cue : Cue) : Option (Rehearsal × Report) := do
  let (r, showing) ← r.play cue
  let report : Report := {
    openSessions := r.receivers.keys.filter r.hub.isOpen
    count := r.hub.sessionCount
    dump := r.hub.store.text
    notes := r.hub.log
    showing }
  return ({ r with hub := { r.hub with log := [] } }, report)

/-- The reports on some cues, and the rehearsal after them. -/
def performAll (r : Rehearsal) : List Cue → Option (List Report × Rehearsal)
  | [] => some ([], r)
  | cue :: cues => do
    let (r, report) ← r.perform cue
    let (reports, r) ← r.performAll cues
    return (report :: reports, r)

/-- What is left after the last cue. -/
structure Closing where
  -- The texts that each receiver got and that were not shown.
  inboxes : List (SessionId × List String)
  -- The updates that each destination got and that were not shown.
  recorded : List (List String)
  place : Place
  names : Except SnapshotError (List String)

/-- The end of a rehearsal, at which patient receivers take what waits for them. -/
def close (r : Rehearsal) : Closing :=
  let r := r.receivers.keys.foldl collect r
  { inboxes := r.receivers.entries.map fun (id, receiver) => (id, r.unshown receiver)
    recorded := r.hub.sinks.map Recorder.received
    place := r.hub.archive.place
    names := r.hub.archive.list }

end Rehearsal

end ShowRelay
