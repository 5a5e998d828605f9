/-
  ShowRelay.Relay.Performance

  Clients that play a list of cues to a whole relay, one after the other. After
  each cue all parts of the relay go on until none of them can, so that each cue
  is seen complete. Where nothing can reach the relay the performance is given
  up at the first cue that needs a connection.
-/

import ShowRelay.Relay.Step

namespace ShowRelay

/-- A client that takes part. -/
structure Performance.Client where
  session : SessionId
  -- How many of the messages sent to it were looked at.
  seen : Nat := 0
  -- The updates of others that it has received and not shown.
  kept : List String := []

/-- A relay with clients, and with listeners at its first destinations. -/
structure Performance where
  relay : Relay
  -- The link between the clients and the relay.
  link : Link
  -- How many datagrams were shown of what each listener got.
  heard : List Nat
  clients : Table String Performance.Client

namespace Performance

/-- A relay before the first cue. -/
def start (relay : Relay) (link : Link) (listeners : Nat) : Performance where
  relay
  link
  heard := List.replicate listeners 0
  clients := Table.empty

/-! ## Coming to rest -/

/-- What can go on by itself, best first. -/
def actions (relay : Relay) : List Relay.Action :=
  let ofConnection (id : SessionId) : List Relay.Action :=
    [.write id, .stopWriter id, .finish id, .dispatch id, .greet id, .read id, .notice id]
  [.hub .proceed, .hub .answer, .hub (.write [])] ++ relay.connections.keys.flatMap ofConnection ++
    [.stopListener, .stopHub]

/-- The relay after at most `steps` steps that were taken by themselves. -/
def settleWithin : (steps : Nat) → Relay → Relay
  | 0, relay => relay
  | steps + 1, relay =>
    match (actions relay).findSome? relay.step with
    | none => relay
    | some relay => settleWithin steps relay

/-- How many steps there can be before nothing goes on by itself: every frame and every
    event may lead to a round, and each connection may end. -/
def stepBound (relay : Relay) : Nat :=
  let waiting := relay.connections.values.foldl
    (fun n c => n + c.incoming.length + c.events.length + 6) 0
  let queued := relay.hub.mailboxes.foldl (fun n mailbox => n + mailbox.queued.length) 0
  let pending := relay.hub.round.elim 0 fun round => round.pending.length + 1
  let items := waiting + queued + pending + relay.hub.jobs.length + 2
  items * (4 * relay.connections.size + 8)

/-- The performance after a step, if the step is possible. -/
def act (p : Performance) (action : Relay.Action) : Option Performance := do
  return { p with relay := ← p.relay.step action }

/-- The performance at rest. -/
def settle (p : Performance) : Performance :=
  { p with relay := settleWithin (stepBound p.relay) p.relay }

/-! ## What clients and listeners get -/

/-- The performance after a client has looked at what was sent to it, and the answers
    among that; the updates are kept. -/
def look (p : Performance) (name : String) : List String × Performance :=
  match p.clients.get? name with
  | none => ([], p)
  | some client =>
    let written := (p.relay.connections.get? client.session).elim [] Connection.written
    let fresh := written.drop client.seen
    let answers := fresh.filterMap fun
      | .answer text => some text
      | .broadcast _ => none
    let updates := fresh.filterMap fun
      | .answer _ => none
      | .broadcast raw => some raw
    let client := { client with seen := written.length, kept := client.kept ++ updates }
    (answers, { p with clients := p.clients.insert name client })

/-- The updates that a client has received and not shown, and the performance when they
    were shown. -/
def receive (p : Performance) (name : String) : List String × Performance :=
  let (_, p) := p.look name
  match p.clients.get? name with
  | none => ([], p)
  | some client =>
    (client.kept, { p with clients := p.clients.insert name { client with kept := [] } })

/-- The messages that each listener has got and not shown, and the performance when they
    were shown. -/
def hear (p : Performance) : List (List OscMessage) × Performance :=
  let fresh := (p.heard.zip p.relay.hub.sinks).map fun (heard, sink) =>
    (sink.sent.drop heard).filterMap fun packet => (Osc.decode packet).toOption
  let heard := (p.heard.zip p.relay.hub.sinks).map fun (_, sink) => sink.sent.length
  (fresh, { p with heard })

/-! ## Cues -/

/-- Where a client that misses the relay arrives. -/
inductive Target where
  | http
  | nobody
  deriving Repr, DecidableEq

/-- One thing to be played. -/
inductive Cue where
  | connect (name : String)
  | send (name : String) (frame : Frame)
  -- A client shows the updates that it has received.
  | receive (name : String)
  | fetch (request : Http.Request)
  | part (name : String) (frame : Frame)
  -- A client sends bytes that end its session, and stays.
  | disturb (name : String) (bytes : Bytes)
  -- Something connects that never begins a session.
  | intrude
  -- A client connects to something else.
  | misconnect (target : Target)

/-- What a cue shows. -/
inductive Showing where
  | nothing
  | handled (answers : List String) (forwarded : List (List OscMessage))
  | received (updates : List String)
  | answered (status : Nat) (contentType body : String)
  | refused (error : ClientError)

/-- The performance, as long as clients can reach the relay. -/
def reach (p : Performance) : Option Performance := if p.link.fault?.isNone then some p else none

/-- The error that a client gets which arrives at the wrong place. -/
def misconnection (p : Performance) (target : Target) : ClientError :=
  match p.link.fault?, target with
  | some fault, _ => .connect fault
  | none, .nobody => .connect .connectionRefused
  | none, .http =>
    let (response, _) := Http.route p.relay.hub.store p.relay.hub.archive ⟨"GET", "/"⟩
    .handshake response.status

/-- The performance at rest after a client has sent a frame. -/
def transmit (p : Performance) (name : String) (frame : Frame) : Option Performance := do
  let client ← p.clients.get? name
  return (← p.act (.send client.session frame)).settle

/-- The performance after a cue, and what the cue shows. -/
def play (p : Performance) : Cue → Option (Performance × Showing)
  | .connect name => do
    let p ← p.reach
    let session : SessionId := ⟨p.relay.nextNumber⟩
    let p := (← p.act (.accept name)).settle
    return ({ p with clients := p.clients.insert name { session } }, .nothing)
  | .send name frame => do
    let p ← p.transmit name frame
    let (answers, p) := p.look name
    let (forwarded, p) := p.hear
    return (p, .handled answers forwarded)
  | .receive name => do
    let _ ← p.clients.get? name
    let (updates, p) := p.receive name
    return (p, .received updates)
  | .fetch request => do
    let p ← p.reach
    let (response, notes) := Http.route p.relay.hub.store p.relay.hub.archive request
    let hub := { p.relay.hub with log := p.relay.hub.log ++ notes }
    return ({ p with relay := { p.relay with hub } },
      .answered response.status Http.Response.contentType (response.sentBody request.method))
  | .part name frame => do
    let p ← p.transmit name frame
    return ({ p with clients := p.clients.erase name }, .nothing)
  | .disturb name bytes => do return (← p.transmit name (.ofRaw bytes), .nothing)
  | .intrude => do
    let p ← p.reach
    let session : SessionId := ⟨p.relay.nextNumber⟩
    let p ← p.act (.accept "")
    return ((← p.act (.refuse session)).settle, .nothing)
  | .misconnect target => some (p, .refused (p.misconnection target))

/-- What some cues show, and the performance after them. -/
def playAll (p : Performance) : List Cue → Option (List Showing × Performance)
  | [] => some ([], p)
  | cue :: cues => do
    let (p, showing) ← p.play cue
    let (showings, p) ← p.playAll cues
    return (showing :: showings, p)

/-! ## The end -/

/-- The relay after it was told to stop and has stopped. -/
def stop (p : Performance) : Performance := ((p.act .stop).getD p).settle

/-- The updates that each client has received and not shown. -/
def inboxes (p : Performance) : List (String × List String) :=
  p.clients.keys.map fun name => (name, (p.receive name).1)

/-- What each client finds at its next attempt to receive. -/
def ends (p : Performance) : List (String × ClientError) :=
  p.clients.entries.filterMap fun (name, client) => do
    let c ← p.relay.connections.get? client.session
    match c.reader with
    | .done reason => some (name, .ofEnd reason)
    | _ => none

end Performance

end ShowRelay
