/-
  ShowRelay.Proofs.Relay.Ordering

  What a relay keeps in order, whatever its parts do side by side: clients that
  send and close at any time, readers and writers that fail, and a shutdown at
  any moment. Each client has a number of its own; what the hub takes up from
  it, and what it accepts, is a beginning of what the client has sent; and what
  is sent to it is a beginning of what was put into its queue
  (`Relay.orderly_of_run`).

  The messages that the hub accepts from all clients are one list, in which
  those of each client stand in their order. The store is what that list of
  messages makes of the first one.
-/

import ShowRelay.Proofs.Relay.Outbound

namespace ShowRelay.Relay

variable {first relay next : Relay} {action : Action} {actions : List Action}

/-! ## Numbers -/

/-- Numbers were given out one after the other, one for each connection. -/
structure Numbered (relay : Relay) (ids : List SessionId) : Prop where
  ids : ids = (List.range relay.nextNumber).map SessionId.mk
  connections : ∀ id, relay.connections.contains id = true ↔ id.number < relay.nextNumber

theorem Numbered.mem_iff {ids : List SessionId} (h : Numbered relay ids) (id : SessionId) :
    id ∈ ids ↔ id.number < relay.nextNumber := by
  rw [h.ids, List.mem_map]
  constructor
  · rintro ⟨number, hnumber, rfl⟩
    exact List.mem_range.1 hnumber
  · intro hlt
    exact ⟨id.number, List.mem_range.2 hlt, rfl⟩

theorem Numbered.nodup {ids : List SessionId} (h : Numbered relay ids) : ids.Nodup := by
  rw [h.ids]
  apply List.Pairwise.map SessionId.mk _ List.nodup_range
  intro one other hne heq
  exact hne (congrArg SessionId.number heq)

theorem Numbered.length_eq {ids : List SessionId} (h : Numbered relay ids) :
    ids.length = relay.nextNumber := by
  rw [h.ids, List.length_map, List.length_range]

/-- A connection that is there goes on. -/
theorem contains_setConnection {id : SessionId} {c : Connection}
    (hc : relay.connections.get? id = some c) (changed : Connection) (other : SessionId) :
    (relay.connections.insert id changed).contains other = relay.connections.contains other := by
  rw [Table.contains, Table.get?_insert]
  split
  · next hsame => rw [hsame, Table.contains, hc, Option.isSome_some, Option.isSome_some]
  · rfl

theorem numbered_of_move (hmove : Move relay action next) {ids : List SessionId}
    (h : Numbered relay ids) : Numbered next (ids ++ relay.numberIn action) := by
  have hgo : relay.numberIn action = [] → next.nextNumber = relay.nextNumber →
      (∀ id, next.connections.contains id = relay.connections.contains id) →
        Numbered next (ids ++ relay.numberIn action) := by
    intro hnone hnumber hcontains
    refine ⟨?_, fun id => ?_⟩
    · rw [hnone, List.append_nil, hnumber]
      exact h.ids
    · rw [hcontains, hnumber]
      exact h.connections id
  cases hmove with
  | accept peer =>
    refine ⟨?_, fun id => ?_⟩
    · rw [h.ids, List.range_succ, List.map_append]
      rfl
    · show (relay.connections.insert ⟨relay.nextNumber⟩ { peer }).contains id = true ↔
        id.number < relay.nextNumber + 1
      rw [Table.contains, Table.get?_insert]
      split
      · next hsame =>
        rw [hsame]
        exact iff_of_true rfl (Nat.lt_succ_self _)
      · next hother =>
        have hne : id.number ≠ relay.nextNumber := fun heq => hother (congrArg SessionId.mk heq)
        rw [← Table.contains, h.connections]
        omega
  | own _ id c changed hc hown =>
    exact hgo (hown.unseen relay).1.number rfl (contains_setConnection hc changed)
  | writer _ id c changed mailboxes hc hwrites =>
    exact hgo (hwrites.unseen relay).1.number rfl (contains_setConnection hc changed)
  | register id other c peer depth events new hround hc =>
    exact hgo rfl rfl (contains_setConnection hc _)
  | handle id c event events hround hc => exact hgo rfl rfl (contains_setConnection hc _)
  | work work hub hstep => exact hgo rfl rfl fun _ => rfl
  | wane _ running listening attending haction =>
    exact hgo (unseen_of_wane haction relay).1.number rfl fun _ => rfl

/-! ## Runs -/

/-- A relay that nobody has connected to yet. -/
structure Fresh (relay : Relay) : Prop where
  connections : relay.connections = Table.empty
  nextNumber : relay.nextNumber = 0
  sessions : relay.hub.sessions = Table.empty

/-- What a relay starts as: nobody has connected, and the disk is as it was. -/
theorem exists_of_start {hosts : HostLookup} {config : Config} {disk : Disk} {process : Nat}
    {link : Link} {binding : Binding}
    (h : start hosts config disk process link binding = .ok relay) :
    ∃ store sinks log, relay = {
      hub := { Hub.start store (.ofDisk config.snapshotDir disk process) sinks with log }
      queueDepth := config.queueDepth
      connections := Table.empty
      nextNumber := 0
      running := true
      listening := true
      attending := true } := by
  simp only [start, Bind.bind, Except.bind] at h
  split at h
  · cases h
  · split at h
    · cases h
    · split at h
      · cases h
      · split at h
        · cases h
        · cases h
          exact ⟨_, _, _, rfl⟩

/-- A relay starts without connections. -/
theorem fresh_of_start {hosts : HostLookup} {config : Config} {disk : Disk} {process : Nat}
    {link : Link} {binding : Binding}
    (h : start hosts config disk process link binding = .ok relay) : relay.Fresh := by
  obtain ⟨store, sinks, log, rfl⟩ := exists_of_start h
  exact ⟨rfl, rfl, rfl⟩

theorem queueDepth_of_move (hmove : Move relay action next) :
    next.queueDepth = relay.queueDepth := by
  cases hmove with
  | _ => rfl

theorem queueDepth_of_run (hrun : first.run actions = some relay) :
    relay.queueDepth = first.queueDepth := by
  refine run_induction (motive := fun _ relay => relay.queueDepth = first.queueDepth) rfl ?_ hrun
  intro actions relay action next _ ih _ hmove
  exact (queueDepth_of_move hmove).trans ih

theorem numbered_of_run (hfirst : first.Fresh) (hrun : first.run actions = some relay) :
    Numbered relay (first.history numberIn actions) := by
  refine run_induction (motive := fun actions relay =>
    Numbered relay (first.history numberIn actions)) ?_ ?_ hrun
  · refine ⟨?_, fun id => ?_⟩
    · rw [hfirst.nextNumber]
      rfl
    · rw [hfirst.connections, hfirst.nextNumber]
      exact iff_of_false Bool.false_ne_true (Nat.not_lt_zero _)
  · intro actions relay action next hactions ih _ hmove
    rw [history_concat numberIn action hactions]
    exact numbered_of_move hmove ih

theorem inbound_of_run (hfirst : first.Fresh) (hrun : first.run actions = some relay) :
    Inbound relay (fun id => first.history (sentIn id) actions)
      (first.history eventIn actions) := by
  refine run_induction (motive := fun actions relay => Inbound relay
    (fun id => first.history (sentIn id) actions) (first.history eventIn actions)) ?_ ?_ hrun
  · refine ⟨?_, fun _ => ⟨rfl, rfl⟩, ?_⟩
    · intro id c hc
      rw [hfirst.connections] at hc
      cases hc
    · intro id c hc
      rw [hfirst.connections] at hc
      cases hc
  · intro actions relay action next hactions ih _ hmove
    simp only [history_concat _ action hactions]
    exact inbound_of_move hmove ih

theorem hearing_of_run (hfirst : first.Fresh) (hrun : first.run actions = some relay) :
    Hub.Hearing relay.hub.sessions (first.history eventIn actions)
      (first.history heardIn actions) := by
  refine run_induction (motive := fun actions relay => Hub.Hearing relay.hub.sessions
    (first.history eventIn actions) (first.history heardIn actions)) ?_ ?_ hrun
  · rw [hfirst.sessions]
    exact ⟨fun _ => List.prefix_rfl, fun _ hopen => (by cases hopen), fun _ _ => rfl⟩
  · intro actions relay action next hactions ih _ hmove
    simp only [history_concat _ action hactions]
    exact hearing_of_move hmove (inbound_of_run hfirst hactions) ih

theorem store_of_run (hrun : first.run actions = some relay) :
    relay.hub.store = first.hub.store.replay (updatesOf (first.history heardIn actions)) := by
  refine run_induction (motive := fun actions relay => relay.hub.store =
    first.hub.store.replay (updatesOf (first.history heardIn actions))) rfl ?_ hrun
  intro actions relay action next hactions ih _ hmove
  rw [store_of_move hmove, ih, history_concat _ action hactions, updatesOf_append,
    Store.replay_append]

theorem outbound_of_run (hfirst : first.Fresh) (hrun : first.run actions = some relay) :
    Outbound relay (first.history eventIn actions)
      (fun id => first.history (putIn id) actions) := by
  refine run_induction (motive := fun actions relay => Outbound relay
    (first.history eventIn actions) (fun id => first.history (putIn id) actions)) ?_ ?_ hrun
  · have hnobody : ∀ id, first.connections.get? id = none := by
      intro id
      rw [hfirst.connections]
      rfl
    have hqueue : ∀ id, first.queueOf id = none := by
      intro id
      rw [queueOf, hnobody]
      rfl
    refine ⟨fun _ => hqueue _, fun _ => rfl, ?_, ?_, ?_, ?_⟩
    · intro id c hc
      rw [hnobody] at hc
      cases hc
    · intro id c number hc
      rw [hnobody] at hc
      cases hc
    · intro id other number hid
      rw [hqueue] at hid
      cases hid
    · intro id session hsession
      rw [hfirst.sessions] at hsession
      cases hsession
  · intro actions relay action next hactions ih _ hmove
    simp only [history_concat _ action hactions]
    exact outbound_of_move hmove (inbound_of_run hfirst hactions) ih

/-! ## All together -/

/-- What there is to say about the order in which things happen in a run. -/
structure Orderly (first : Relay) (actions : List Action) (relay : Relay) : Prop where
  -- No two clients get the same number, and each number is smaller than there were clients.
  numbers : (first.history numberIn actions).Nodup ∧
    ∀ id ∈ first.history numberIn actions, id.number < (first.history numberIn actions).length
  -- The connections are those of the clients that were accepted.
  connections : ∀ id, relay.connections.contains id = true ↔ id ∈ first.history numberIn actions
  -- The hub takes up the connection of a session before its messages, and nothing after its
  -- end. The messages are those in a beginning of what the client has sent.
  events : ∀ id, ∃ peer seen, seen <+: first.history (sentIn id) actions ∧
    Hub.eventsOf id (first.history eventIn actions) <+:
      .connect id peer first.queueDepth ::
        (seen.filterMap Frame.message?).map (.message id) ++ [.disconnect id]
  -- What the hub accepts from a client is a beginning of the messages that it has sent.
  heard : ∀ id, Hub.heardOf id (first.history heardIn actions) <+:
    (first.history (sentIn id) actions).filterMap Frame.message?
  -- The store is what the accepted messages of all clients, in one order, have made of it.
  merged : relay.hub.store = first.hub.store.replay (updatesOf (first.history heardIn actions))
  -- Connections have mailboxes of their own, and those of open sessions are theirs.
  queues : (∀ id other number, relay.queueOf id = some number →
      relay.queueOf other = some number → id = other) ∧
    ∀ id session, relay.hub.sessions.get? id = some session →
      relay.queueOf id = some session.mailbox
  -- A mailbox has held what was put into it, and nothing else.
  held : ∀ id number, relay.queueOf id = some number → ∃ mailbox,
    relay.hub.mailboxes[number]? = some mailbox ∧
      mailbox.contents = first.history (putIn id) actions
  -- What was sent to a client is a beginning of that.
  written : ∀ id c, relay.connections.get? id = some c →
    c.written <+: first.history (putIn id) actions
  -- As long as a session is open nothing is lost on the way in: the messages that its client
  -- has sent were accepted, wait for the hub or are not read yet.
  inward : ∀ id c, relay.connections.get? id = some c → relay.hub.isOpen id = true →
    (first.history (sentIn id) actions).filterMap Frame.message? =
      Hub.heardOf id (first.history heardIn actions) ++ c.events.filterMap Hub.Event.raw? ++
        c.incoming.filterMap Frame.message?
  -- As long as a writer runs nothing is lost on the way out.
  outward : ∀ id c number mailbox, relay.connections.get? id = some c →
    c.mailbox = some number → relay.hub.mailboxes[number]? = some mailbox →
      c.writer = .running → first.history (putIn id) actions = c.written ++ mailbox.queued

/-- Every run of a relay from its start is orderly. -/
theorem orderly_of_run {hosts : HostLookup} {config : Config} {disk : Disk} {process : Nat}
    {link : Link} {binding : Binding}
    (hstart : start hosts config disk process link binding = .ok first)
    (hrun : first.run actions = some relay) : Orderly first actions relay := by
  have hfirst := fresh_of_start hstart
  have hnumbered := numbered_of_run hfirst hrun
  have hin := inbound_of_run hfirst hrun
  have hhearing := hearing_of_run hfirst hrun
  have hout := outbound_of_run hfirst hrun
  refine ⟨⟨hnumbered.nodup, ?_⟩, ?_, ?_, ?_, store_of_run hrun, ⟨?_, ?_⟩, ?_, ?_, ?_, ?_⟩
  · intro id hid
    rw [hnumbered.length_eq]
    exact (hnumbered.mem_iff id).1 hid
  · intro id
    rw [hnumbered.connections, hnumbered.mem_iff]
  · intro id
    rw [← queueDepth_of_run hrun]
    exact hin.story id
  · intro id
    exact (hhearing.order id).trans (hin.texts id)
  · intro id other number hid hother
    exact hout.distinct hid hother
  · intro id session hsession
    exact hout.registered hsession
  · intro id number hqueue
    exact hout.held hqueue
  · intro id c hc
    exact hout.written hc
  · intro id c hc hopen
    have hbegun : Hub.eventsOf id (first.history eventIn actions) ≠ [] := by
      intro hnone
      have hclosed := hhearing.unopened id hnone
      cases hclosed.symm.trans hopen
    obtain ⟨seen, htold⟩ := hin.told hc
    rw [hhearing.whole id hopen]
    exact htold.texts hbegun
  · intro id c number mailbox hc hnumber hat hwriter
    exact hout.outward hc hnumber hat hwriter

/-- Two clients. The first sends an update, bytes that are no text, a name that is refused and
    a farewell, and the answer to it is lost; the second gets the update before the shutdown. -/
theorem orderly_of_duo :
    ∃ (actions : List Action) (first relay : Relay),
      start HostLookup.numeric { Config.default with sinks := [] } { place := .absent } 1 .up
        (fun _ => .ok (.v4 .unspecified 8080)) = .ok first ∧
      first.run actions = some relay ∧
      Orderly first actions relay ∧
      Hub.heardOf ⟨0⟩ (first.history heardIn actions) = ["x:1", "save:/"] ∧
      (relay.connections.get? ⟨0⟩).map Connection.written = some [] ∧
      (relay.connections.get? ⟨1⟩).map Connection.written = some [.broadcast "x:1"] := by
  refine ⟨[.accept "desk", .accept "pad", .greet ⟨1⟩, .greet ⟨0⟩, .dispatch ⟨0⟩, .dispatch ⟨1⟩,
    .send ⟨0⟩ (.text "x:1"), .send ⟨0⟩ (.binary [0xFF]), .send ⟨0⟩ (.text "save:/"),
    .send ⟨0⟩ .close, .read ⟨0⟩, .read ⟨0⟩, .dispatch ⟨0⟩, .hub .proceed, .hub .proceed,
    .write ⟨1⟩, .read ⟨0⟩, .dispatch ⟨0⟩, .hub .proceed, .hub .proceed, .failWrite ⟨0⟩, .stop,
    .read ⟨0⟩, .finish ⟨0⟩, .dispatch ⟨0⟩, .stopWriter ⟨1⟩, .stopHub], _, _, rfl, rfl,
    @orderly_of_run _ _ _ HostLookup.numeric { Config.default with sinks := [] }
      { place := .absent } 1 .up
      (fun _ => .ok (.v4 .unspecified 8080)) rfl rfl, ?_, ?_, ?_⟩
  · rfl
  · rfl
  · rfl

end ShowRelay.Relay
