/-
  ShowRelay.Proofs.Relay.Move

  What each step of a relay can do, guards included. `Relay.Move` has one case
  for each part of the relay that can take a step. What a connection does away
  from the hub is `Connection.Own`, and what its writer does to the mailboxes is
  `Connection.Writes`. `Relay.move_of_step` says that there are no other steps.

  Runs are seen from outside as those of a hub are: an observer writes down
  something at each step (`Relay.history`), and what holds of every run is
  proved by `Relay.run_induction`, one move at a time.
-/

import ShowRelay.Proofs.Hub.Exchange
import ShowRelay.Relay.Step

namespace ShowRelay

namespace Connection

/-! ## Connections by themselves -/

/-- What a connection does without the hub, where the depth is that of new mailboxes. -/
inductive Own (id : SessionId) (depth : Nat) (c : Connection) :
    Relay.Action → Connection → Prop where
  | greet (hreader : c.reader = .greeting) :
      Own id depth c (.greet id)
        ({ c with reader := .reading, writer := .running }.tell (.connect id c.peer depth))
  | refuse (hreader : c.reader = .greeting) :
      Own id depth c (.refuse id) { c with reader := .refused }
  | send (frame : Frame) : Own id depth c (.send id frame) (c.send frame)
  -- The reader passes a message on.
  | message (frame : Frame) (incoming : List Frame) (raw : String) (hreader : c.reader = .reading)
      (hincoming : c.incoming = frame :: incoming) (hraw : frame.message? = some raw) :
      Own id depth c (.read id) ({ c with incoming }.tell (.message id raw))
  -- The reader reads something that is no message, and may end.
  | skip (frame : Frame) (incoming : List Frame) (reader : Connection.Reader)
      (hreader : c.reader = .reading) (hincoming : c.incoming = frame :: incoming)
      (hraw : frame.message? = none)
      (hafter : reader = .reading ∨ ∃ reason, reader = .ended reason) :
      Own id depth c (.read id) { c with incoming, reader }
  -- The reader ends without reading anything.
  | stop (action : Relay.Action) (reason : Option SessionEnd)
      (haction : action = .failRead id ∨ action = .notice id) (hreader : c.reader = .reading) :
      Own id depth c action { c with reader := .ended reason }
  | finish (reason : Option SessionEnd) (other : SessionEnd) (hreader : c.reader = .ended reason)
      (hwriter : c.writer = .ended other) :
      Own id depth c (.finish id)
        ({ c with reader := .done (reason.getD other) }.tell (.disconnect id))

variable {c changed : Connection} {id : SessionId}

theorem own_greet {depth : Nat} (h : c.greet id depth = some changed) :
    Own id depth c (.greet id) changed := by
  unfold greet at h
  split at h
  · next hreader =>
    cases h
    exact .greet hreader
  · cases h

theorem own_refuse (depth : Nat) (h : c.refuse = some changed) :
    Own id depth c (.refuse id) changed := by
  unfold refuse at h
  split at h
  · next hreader =>
    cases h
    exact .refuse hreader
  · cases h

theorem own_read (depth : Nat) (h : c.read id = some changed) :
    Own id depth c (.read id) changed := by
  unfold read at h
  split at h
  · next frame incoming hreader hincoming =>
    dsimp only at h
    split at h
    · cases h
      exact .skip .close incoming _ hreader hincoming rfl (.inr ⟨_, rfl⟩)
    · cases h
      exact .skip .broken incoming _ hreader hincoming rfl (.inr ⟨_, rfl⟩)
    · split at h
      · next raw hraw =>
        cases h
        exact .message frame incoming raw hreader hincoming hraw
      · next hraw =>
        cases h
        exact .skip frame incoming c.reader hreader hincoming hraw (.inl hreader)
  · cases h

theorem own_failRead (depth : Nat) (h : c.failRead = some changed) :
    Own id depth c (.failRead id) changed := by
  unfold failRead at h
  split at h
  · next hreader =>
    cases h
    exact .stop _ _ (.inl rfl) hreader
  · cases h

theorem own_notice (depth : Nat) {running : Bool} (h : c.notice running = some changed) :
    Own id depth c (.notice id) changed := by
  unfold notice at h
  split at h
  · next hreader =>
    cases h
    exact .stop _ _ (.inr rfl) hreader
  · next hreader _ =>
    cases h
    exact .stop _ _ (.inr rfl) hreader
  · cases h

theorem own_finish (depth : Nat) (h : c.finish id = some changed) :
    Own id depth c (.finish id) changed := by
  unfold finish at h
  split at h
  · next reason other hreader hwriter =>
    cases h
    exact .finish reason other hreader hwriter
  · cases h

/-! ## Writers -/

/-- What the writer of a connection does, to the connection and to the mailboxes. -/
inductive Writes (mailboxes : List Mailbox) (id : SessionId) (c : Connection) :
    Relay.Action → Connection → List Mailbox → Prop where
  -- It sends the message that waited longest.
  | write (number : Nat) (mailbox taken : Mailbox) (delivery : Delivery)
      (hwriter : c.writer = .running) (hnumber : c.mailbox = some number)
      (hat : mailboxes[number]? = some mailbox) (hhead : mailbox.queued.head? = some delivery)
      (htake : mailbox.take? = some taken) :
      Writes mailboxes id c (.write id) { c with written := c.written ++ [delivery] }
        (mailboxes.set number taken)
  -- It takes the message that waited longest, loses it and ends.
  | lose (number : Nat) (mailbox taken : Mailbox) (hwriter : c.writer = .running)
      (hnumber : c.mailbox = some number) (hat : mailboxes[number]? = some mailbox)
      (htake : mailbox.take? = some taken) :
      Writes mailboxes id c (.failWrite id) { c with writer := .ended .failed }
        ((mailboxes.set number taken).modify number Mailbox.leave)
  -- It ends and leaves its mailbox behind.
  | leave (action : Relay.Action) (reason : SessionEnd) (number : Nat)
      (haction : action = .failFlush id ∨ action = .stopWriter id) (hwriter : c.writer = .running)
      (hnumber : c.mailbox = some number) :
      Writes mailboxes id c action { c with writer := .ended reason }
        (mailboxes.modify number Mailbox.leave)
  -- It ends before there is a mailbox.
  | quit (action : Relay.Action) (reason : SessionEnd)
      (haction : action = .failFlush id ∨ action = .stopWriter id) (hwriter : c.writer = .running)
      (hnumber : c.mailbox = none) :
      Writes mailboxes id c action { c with writer := .ended reason } mailboxes

end Connection

namespace Relay

theorem HubWork.isWork (work : HubWork) : work.action.isWork = true := by
  cases work with
  | _ => rfl

/-! ## Moves -/

/-- What the steps of a relay lead to. -/
inductive Move (relay : Relay) : Action → Relay → Prop where
  -- A client is accepted, under the next number.
  | accept (peer : String) :
      Move relay (.accept peer) { relay with
        nextNumber := relay.nextNumber + 1
        connections := relay.connections.insert ⟨relay.nextNumber⟩ { peer } }
  -- A client or its reader does something, or their connection begins or ends.
  | own (action : Action) (id : SessionId) (c changed : Connection)
      (hc : relay.connections.get? id = some c) (hown : c.Own id relay.queueDepth action changed) :
      Move relay action (relay.setConnection id changed)
  -- The writer of a connection does something.
  | writer (action : Action) (id : SessionId) (c changed : Connection) (mailboxes : List Mailbox)
      (hc : relay.connections.get? id = some c)
      (hwrites : c.Writes relay.hub.mailboxes id action changed mailboxes) :
      Move relay action
        ({ relay with hub := { relay.hub with mailboxes } }.setConnection id changed)
  -- The hub takes up a connection. Where its writer has ended, nobody attends to the new
  -- mailbox.
  | register (id other : SessionId) (c : Connection) (peer : String) (depth : Nat)
      (events : List Hub.Event) (new : Mailbox) (hround : relay.hub.round = none)
      (hc : relay.connections.get? id = some c)
      (hevents : c.events = .connect other peer depth :: events)
      (hnew : new = { depth } ∨ new = Mailbox.leave { depth }) :
      Move relay (.dispatch id)
        ({ relay with
          hub := { relay.hub.handle (.connect other peer depth) with
            mailboxes := relay.hub.mailboxes ++ [new] } }.setConnection id
          { c with events, mailbox := some relay.hub.mailboxes.length })
  -- The hub takes up any other event.
  | handle (id : SessionId) (c : Connection) (event : Hub.Event) (events : List Hub.Event)
      (hround : relay.hub.round = none) (hc : relay.connections.get? id = some c)
      (hevents : c.events = event :: events)
      (hother : ∀ other peer depth, event ≠ .connect other peer depth) :
      Move relay (.dispatch id)
        ({ relay with hub := relay.hub.handle event }.setConnection id { c with events })
  -- The hub or the snapshot writer goes on.
  | work (work : HubWork) (hub : Hub UdpSink) (hstep : relay.hub.step work.action = some hub) :
      Move relay (.hub work) { relay with hub }
  -- The relay is told to stop, or one of its loops ends.
  | wane (action : Action) (running listening attending : Bool)
      (haction : action = .stop ∨ action = .stopListener ∨ action = .stopHub) :
      Move relay action { relay with running, listening, attending }

variable {relay next : Relay} {id : SessionId}

theorem change_eq_some_iff {step : Connection → Option Connection} :
    relay.change id step = some next ↔
      ∃ c changed, relay.connections.get? id = some c ∧ step c = some changed ∧
        relay.setConnection id changed = next := by
  unfold change
  cases relay.connections.get? id with
  | none => simp
  | some c => simp [Option.bind_eq_some_iff]

/-- A writer that has something to send, and what the hub holds for it. -/
theorem outgoing?_eq_some {c : Connection} {number : Nat} {delivery : Delivery}
    (h : relay.outgoing? c = some (number, delivery)) :
    c.writer = .running ∧ c.mailbox = some number ∧
      ∃ mailbox, relay.hub.mailboxes[number]? = some mailbox ∧
        mailbox.queued.head? = some delivery := by
  unfold outgoing? at h
  split at h
  · cases h
  · next hwriter =>
    obtain ⟨held, hheld, h⟩ := Option.bind_eq_some_iff.1 h
    obtain ⟨mailbox, hat, h⟩ := Option.bind_eq_some_iff.1 h
    obtain ⟨first, hfirst, h⟩ := Option.bind_eq_some_iff.1 h
    cases h
    exact ⟨by simpa using hwriter, hheld, mailbox, hat, hfirst⟩

theorem take_eq_some {hub after : Hub UdpSink} {number : Nat} (h : hub.take number = some after)
    {mailbox : Mailbox} (hat : hub.mailboxes[number]? = some mailbox) :
    ∃ taken, mailbox.take? = some taken ∧
      { hub with mailboxes := hub.mailboxes.set number taken } = after := by
  simp only [Hub.take, hat, Option.bind_eq_bind, Option.bind_some] at h
  obtain ⟨taken, htake, h⟩ := Option.bind_eq_some_iff.1 h
  exact ⟨taken, htake, Option.some.inj h⟩

theorem endWriter_of_some {c : Connection} {number : Nat} (hnumber : c.mailbox = some number)
    (relay : Relay) (reason : SessionEnd) :
    relay.endWriter id c reason =
      { relay with hub := relay.hub.changeMailbox number Mailbox.leave }.setConnection id
        { c with writer := .ended reason } := by
  simp only [endWriter, hnumber]

theorem endWriter_of_none {c : Connection} (hnumber : c.mailbox = none) (relay : Relay)
    (reason : SessionEnd) :
    relay.endWriter id c reason = relay.setConnection id { c with writer := .ended reason } := by
  simp only [endWriter, hnumber]

theorem move_write (h : relay.write id = some next) : Move relay (.write id) next := by
  unfold write at h
  obtain ⟨c, hc, h⟩ := Option.bind_eq_some_iff.1 h
  obtain ⟨⟨number, delivery⟩, hout, h⟩ := Option.bind_eq_some_iff.1 h
  obtain ⟨hub, hhub, h⟩ := Option.bind_eq_some_iff.1 h
  obtain ⟨hwriter, hnumber, mailbox, hat, hhead⟩ := outgoing?_eq_some hout
  obtain ⟨taken, htake, rfl⟩ := take_eq_some hhub hat
  cases h
  exact .writer _ id c _ _ hc (.write number mailbox taken delivery hwriter hnumber hat hhead htake)

theorem move_failWrite (h : relay.failWrite id = some next) : Move relay (.failWrite id) next := by
  unfold failWrite at h
  obtain ⟨c, hc, h⟩ := Option.bind_eq_some_iff.1 h
  obtain ⟨⟨number, delivery⟩, hout, h⟩ := Option.bind_eq_some_iff.1 h
  obtain ⟨hub, hhub, h⟩ := Option.bind_eq_some_iff.1 h
  obtain ⟨hwriter, hnumber, mailbox, hat, _⟩ := outgoing?_eq_some hout
  obtain ⟨taken, htake, rfl⟩ := take_eq_some hhub hat
  cases h
  rw [endWriter_of_some hnumber]
  exact .writer _ id c _ _ hc (.lose number mailbox taken hwriter hnumber hat htake)

/-- A writer ends for a reason of its own. -/
theorem move_endWriter {action : Action} {c : Connection} {reason : SessionEnd}
    (haction : action = .failFlush id ∨ action = .stopWriter id)
    (hc : relay.connections.get? id = some c) (hwriter : c.writer = .running) :
    Move relay action (relay.endWriter id c reason) := by
  cases hnumber : c.mailbox with
  | none =>
    rw [endWriter_of_none hnumber]
    exact .writer _ id c _ _ hc (.quit action reason haction hwriter hnumber)
  | some number =>
    rw [endWriter_of_some hnumber]
    exact .writer _ id c _ _ hc (.leave action reason number haction hwriter hnumber)

theorem move_failFlush (h : relay.failFlush id = some next) : Move relay (.failFlush id) next := by
  unfold failFlush at h
  obtain ⟨c, hc, h⟩ := Option.bind_eq_some_iff.1 h
  split at h
  · next hwriter =>
    cases h
    exact move_endWriter (.inl rfl) hc hwriter
  · cases h

theorem move_stopWriter (h : relay.stopWriter id = some next) :
    Move relay (.stopWriter id) next := by
  unfold stopWriter at h
  obtain ⟨c, hc, h⟩ := Option.bind_eq_some_iff.1 h
  obtain ⟨reason, hreason, h⟩ := Option.bind_eq_some_iff.1 h
  cases h
  have hwriter : c.writer = .running := by
    unfold Connection.writerEnd? at hreason
    split at hreason
    · assumption
    · cases hreason
  exact move_endWriter (.inr rfl) hc hwriter

/-- A change to the newest mailbox. -/
theorem modify_new (mailboxes : List Mailbox) (new : Mailbox) (change : Mailbox → Mailbox) :
    (mailboxes ++ [new]).modify mailboxes.length change = mailboxes ++ [change new] := by
  have hat : (mailboxes ++ [new])[mailboxes.length]? = some new := List.getElem?_concat_length
  rw [Hub.modify_eq_set_of_getElem? hat, List.set_append_right _ _ (Nat.le_refl _), Nat.sub_self]
  rfl

theorem move_dispatch (h : relay.dispatch id = some next) : Move relay (.dispatch id) next := by
  unfold dispatch at h
  obtain ⟨c, hc, h⟩ := Option.bind_eq_some_iff.1 h
  obtain ⟨event, hevent, h⟩ := Option.bind_eq_some_iff.1 h
  split at h
  · cases h
  · dsimp only at h
    obtain ⟨hub, hhub, h⟩ := Option.bind_eq_some_iff.1 h
    obtain ⟨hround, rfl⟩ : relay.hub.round = none ∧ relay.hub.handle event = hub := by
      simpa [Hub.step] using hhub
    have hevents : c.events = event :: c.events.tail := by
      rw [List.head?_eq_some_iff] at hevent
      obtain ⟨events, hevents⟩ := hevent
      rw [hevents, List.tail_cons]
    cases event with
    | connect other peer depth =>
      split at h
      · next reason hconnect hwriter =>
        cases h
        have hmove := Move.register id other c peer depth _ _ hround hc hevents (.inr rfl)
        rw [endWriter_of_some rfl]
        have hleave := modify_new relay.hub.mailboxes { depth } Mailbox.leave
        rw [hwriter] at hmove
        rw [Hub.changeMailbox, Hub.mailboxes_connect, hleave]
        exact hmove
      · cases h
        have hmove := Move.register id other c peer depth _ _ hround hc hevents (.inl rfl)
        rw [← Hub.mailboxes_connect relay.hub other peer depth] at hmove
        exact hmove
      · next hnone _ => exact absurd rfl (hnone _ _ _)
    | message other raw =>
      cases h
      exact .handle id c _ _ hround hc hevents fun _ _ _ h => by cases h
    | disconnect other =>
      cases h
      exact .handle id c _ _ hround hc hevents fun _ _ _ h => by cases h

theorem move_of_step {action : Action} (h : relay.step action = some next) :
    Move relay action next := by
  -- The steps that a connection takes by itself are all of one form.
  have hown : ∀ {id : SessionId} {step : Connection → Option Connection},
      (∀ {c changed}, step c = some changed → c.Own id relay.queueDepth action changed) →
        relay.change id step = some next → Move relay action next := by
    intro id step hspec hchange
    obtain ⟨c, changed, hc, hchanged, rfl⟩ := change_eq_some_iff.1 hchange
    exact .own action id c changed hc (hspec hchanged)
  cases action with
  | accept peer =>
    simp only [step, accept] at h
    split at h
    · cases h
      exact .accept peer
    · cases h
  | greet id => exact hown Connection.own_greet h
  | refuse id => exact hown (Connection.own_refuse _) h
  | send id frame => exact hown (fun hsome => Option.some.inj hsome ▸ .send frame) h
  | read id => exact hown (Connection.own_read _) h
  | failRead id => exact hown (Connection.own_failRead _) h
  | notice id => exact hown (Connection.own_notice _) h
  | finish id => exact hown (Connection.own_finish _) h
  | write id => exact move_write h
  | failWrite id => exact move_failWrite h
  | failFlush id => exact move_failFlush h
  | stopWriter id => exact move_stopWriter h
  | dispatch id => exact move_dispatch h
  | hub work =>
    obtain ⟨hub, hhub, h⟩ := Option.bind_eq_some_iff.1 h
    cases h
    exact .work work hub hhub
  | stop =>
    cases h
    exact .wane _ _ _ _ (.inl rfl)
  | stopListener =>
    simp only [step, stopListener] at h
    split at h
    · cases h
      exact .wane _ _ _ _ (.inr (.inl rfl))
    · cases h
  | stopHub =>
    simp only [step, stopHub] at h
    split at h
    · cases h
      exact .wane _ _ _ _ (.inr (.inr rfl))
    · cases h

/-! ## Runs -/

theorem run_concat (relay : Relay) (actions : List Action) (action : Action) :
    relay.run (actions ++ [action]) = (relay.run actions).bind fun next => next.step action := by
  simp only [run, List.foldlM_append, List.foldlM_cons, List.foldlM_nil, bind_pure]
  rfl

/-- What holds of the first relay and is kept by every move holds after every run. -/
theorem run_induction {first : Relay} {motive : List Action → Relay → Prop}
    (hstart : motive [] first)
    (hmove : ∀ {actions relay action next}, first.run actions = some relay →
      motive actions relay → relay.step action = some next → Move relay action next →
        motive (actions ++ [action]) next)
    {actions : List Action} {relay : Relay} (hrun : first.run actions = some relay) :
    motive actions relay := by
  induction actions using List.reverseRecOn generalizing relay with
  | nil =>
    cases hrun
    exact hstart
  | append_singleton actions action ih =>
    rw [run_concat] at hrun
    obtain ⟨middle, hmiddle, hstep⟩ := Option.bind_eq_some_iff.1 hrun
    exact hmove hmiddle (ih hmiddle) hstep (move_of_step hstep)

/-- What an observer writes down in a run, for as long as its steps can be taken. -/
def history {α : Type} (observe : Relay → Action → List α) (relay : Relay) : List Action → List α
  | [] => []
  | action :: actions =>
    observe relay action ++ (relay.step action).elim [] fun next => next.history observe actions

theorem history_concat {α : Type} (observe : Relay → Action → List α) {first relay : Relay}
    {actions : List Action} (action : Action) (hrun : first.run actions = some relay) :
    first.history observe (actions ++ [action]) =
      first.history observe actions ++ observe relay action := by
  induction actions generalizing first with
  | nil =>
    cases hrun
    rw [List.nil_append, history, history, List.nil_append]
    cases relay.step action with
    | none => exact List.append_nil _
    | some next => exact List.append_nil _
  | cons head actions ih =>
    obtain ⟨next, hnext, hactions⟩ := Option.bind_eq_some_iff.1 hrun
    rw [List.cons_append, history, history, hnext, Option.elim_some, Option.elim_some,
      ih hactions, List.append_assoc]

/-- What is written down is written down at some step. -/
theorem exists_of_mem_history {α : Type} {observe : Relay → Action → List α} {relay : Relay}
    {actions : List Action} {entry : α} (h : entry ∈ relay.history observe actions) :
    ∃ middle, ∃ action ∈ actions, entry ∈ observe middle action := by
  induction actions generalizing relay with
  | nil => cases h
  | cons action actions ih =>
    rcases List.mem_append.1 h with h | h
    · exact ⟨relay, action, List.mem_cons_self, h⟩
    · cases hnext : relay.step action with
      | none =>
        rw [hnext] at h
        cases h
      | some next =>
        rw [hnext] at h
        obtain ⟨middle, other, hmem, hat⟩ := ih h
        exact ⟨middle, other, List.mem_cons_of_mem action hmem, hat⟩

/-! ## What is seen of a run -/

/-- The number that a client is given. -/
def numberIn (relay : Relay) : Action → List SessionId
  | .accept _ => [⟨relay.nextNumber⟩]
  | _ => []

/-- What a client puts on its WebSocket. -/
def sentIn (id : SessionId) (_ : Relay) : Action → List Frame
  | .send other frame => if other = id then [frame] else []
  | _ => []

/-- The event that the hub takes up. -/
def eventIn (relay : Relay) : Action → List Hub.Event
  | .dispatch id => ((relay.connections.get? id).bind fun c => c.events.head?).toList
  | _ => []

/-- The message that the hub accepts, with its session. -/
def heardIn (relay : Relay) (action : Action) : List (SessionId × String) :=
  (relay.eventIn action).filterMap relay.hub.heard?

/-- The number of the mailbox of a connection, once the hub has taken it up. -/
def queueOf (relay : Relay) (id : SessionId) : Option Nat :=
  (relay.connections.get? id).bind Connection.mailbox

/-- What the hub and its snapshot writer put into the mailbox of a connection. -/
def putIn (id : SessionId) (relay : Relay) : Action → List Delivery
  | .hub work => (relay.queueOf id).elim [] fun number => relay.hub.putIn number work.action
  | _ => []

theorem eventIn_dispatch {relay : Relay} {id : SessionId} {c : Connection} {event : Hub.Event}
    {events : List Hub.Event} (hc : relay.connections.get? id = some c)
    (hevents : c.events = event :: events) : relay.eventIn (.dispatch id) = [event] := by
  rw [eventIn, hc, Option.bind_some, hevents]
  rfl

/-- A step that is neither one of the listener nor one of the hub. -/
structure Unseen (relay : Relay) (action : Action) : Prop where
  number : relay.numberIn action = []
  event : relay.eventIn action = []
  put : ∀ id, relay.putIn id action = []

theorem unseen_of_wane {action : Action}
    (h : action = .stop ∨ action = .stopListener ∨ action = .stopHub) (relay : Relay) :
    relay.Unseen action ∧ ∀ id, relay.sentIn id action = [] := by
  rcases h with rfl | rfl | rfl
  · exact ⟨⟨rfl, rfl, fun _ => rfl⟩, fun _ => rfl⟩
  · exact ⟨⟨rfl, rfl, fun _ => rfl⟩, fun _ => rfl⟩
  · exact ⟨⟨rfl, rfl, fun _ => rfl⟩, fun _ => rfl⟩

end Relay

namespace Connection

variable {id : SessionId} {depth : Nat} {c changed : Connection} {action : Relay.Action}

/-- What a connection does by itself is nothing to others. -/
theorem Own.unseen (h : c.Own id depth action changed) (relay : Relay) :
    relay.Unseen action ∧ ∀ other, other ≠ id → relay.sentIn other action = [] := by
  cases h with
  | send frame => exact ⟨⟨rfl, rfl, fun _ => rfl⟩, fun _ hother => if_neg (Ne.symm hother)⟩
  | stop _ reason haction hreader =>
    rcases haction with rfl | rfl
    · exact ⟨⟨rfl, rfl, fun _ => rfl⟩, fun _ _ => rfl⟩
    · exact ⟨⟨rfl, rfl, fun _ => rfl⟩, fun _ _ => rfl⟩
  | _ => exact ⟨⟨rfl, rfl, fun _ => rfl⟩, fun _ _ => rfl⟩

/-- So is what a writer does, but for mailboxes. -/
theorem Writes.unseen {mailboxes after : List Mailbox}
    (h : c.Writes mailboxes id action changed after) (relay : Relay) :
    relay.Unseen action ∧ ∀ other, relay.sentIn other action = [] := by
  have hends : ∀ {action : Relay.Action}, action = .failFlush id ∨ action = .stopWriter id →
      relay.Unseen action ∧ ∀ other, relay.sentIn other action = [] := by
    rintro action (rfl | rfl)
    · exact ⟨⟨rfl, rfl, fun _ => rfl⟩, fun _ => rfl⟩
    · exact ⟨⟨rfl, rfl, fun _ => rfl⟩, fun _ => rfl⟩
  cases h with
  | leave _ reason number haction => exact hends haction
  | quit _ reason haction => exact hends haction
  | _ => exact ⟨⟨rfl, rfl, fun _ => rfl⟩, fun _ => rfl⟩

end Connection

end ShowRelay
