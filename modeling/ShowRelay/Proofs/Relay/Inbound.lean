/-
  ShowRelay.Proofs.Relay.Inbound

  The way of a message from a client to the hub. What a connection tells the hub
  is one story: that it connects, the messages among the frames that were read,
  and that it disconnects (`Connection.story`). The hub takes up a beginning of
  that story, whatever it takes up from other connections in between
  (`Relay.Inbound`).

  The hub accepts messages while a session is open. Since a session is opened
  once, by the first event of its story, and never again after it was dropped,
  the accepted messages are a beginning too (`Hub.Hearing`).
-/

import ShowRelay.Proofs.Hub.Hearing
import ShowRelay.Proofs.Relay.Move

namespace ShowRelay

/-! ## The story of a connection -/

namespace Connection

/-- What the hub is told of a session before its end, after some frames were read. -/
def opening (id : SessionId) (peer : String) (depth : Nat) (seen : List Frame) :
    List Hub.Event :=
  .connect id peer depth :: (seen.filterMap Frame.message?).map (.message id)

/-- All that a connection has told the hub, after some frames were read. -/
def story (c : Connection) (id : SessionId) (depth : Nat) (seen : List Frame) :
    List Hub.Event :=
  match c.reader with
  | .greeting | .refused => []
  | .reading | .ended _ => opening id c.peer depth seen
  | .done _ => opening id c.peer depth seen ++ [.disconnect id]

theorem story_of_greeting {c : Connection} (h : c.reader = .greeting) (id : SessionId)
    (depth : Nat) (seen : List Frame) : c.story id depth seen = [] := by
  rw [story, h]

theorem story_of_reading {c : Connection} (h : c.reader = .reading) (id : SessionId)
    (depth : Nat) (seen : List Frame) : c.story id depth seen = opening id c.peer depth seen := by
  rw [story, h]

theorem story_of_ended {c : Connection} {reason : Option SessionEnd}
    (h : c.reader = .ended reason) (id : SessionId) (depth : Nat) (seen : List Frame) :
    c.story id depth seen = opening id c.peer depth seen := by
  rw [story, h]

theorem opening_concat (id : SessionId) (peer : String) (depth : Nat) (seen : List Frame)
    (frame : Frame) :
    opening id peer depth (seen ++ [frame]) =
      opening id peer depth seen ++ frame.message?.toList.map (.message id) := by
  cases hraw : frame.message? with
  | none => simp [opening, List.filterMap_append, hraw]
  | some raw => simp [opening, List.filterMap_append, hraw]

theorem filterMap_opening (id : SessionId) (peer : String) (depth : Nat) (seen : List Frame) :
    (opening id peer depth seen).filterMap Hub.Event.raw? = seen.filterMap Frame.message? := by
  have hmessage : Hub.Event.raw? ∘ Hub.Event.message id = some := rfl
  rw [opening, List.filterMap_cons_none rfl, List.filterMap_map, hmessage, List.filterMap_some]

theorem filterMap_opening_end (id : SessionId) (peer : String) (depth : Nat) (seen : List Frame) :
    (opening id peer depth seen ++ [Hub.Event.disconnect id]).filterMap Hub.Event.raw? =
      seen.filterMap Frame.message? := by
  rw [List.filterMap_append, filterMap_opening]
  exact List.append_nil _

/-- The messages of a story that has begun are those that were read. -/
theorem filterMap_story {c : Connection} {id : SessionId} {depth : Nat} {seen : List Frame}
    (h : c.story id depth seen ≠ []) :
    (c.story id depth seen).filterMap Hub.Event.raw? = seen.filterMap Frame.message? := by
  unfold story at h ⊢
  split at h
  · exact absurd rfl h
  · exact absurd rfl h
  · exact filterMap_opening id c.peer depth seen
  · exact filterMap_opening id c.peer depth seen
  · exact filterMap_opening_end id c.peer depth seen

/-- A story is at most a whole one. -/
theorem story_prefix (c : Connection) (id : SessionId) (depth : Nat) (seen : List Frame) :
    c.story id depth seen <+: opening id c.peer depth seen ++ [.disconnect id] := by
  unfold story
  split
  · exact List.nil_prefix
  · exact List.nil_prefix
  · exact List.prefix_append _ _
  · exact List.prefix_append _ _
  · exact List.prefix_rfl

/-- A connection tells of its own session only. -/
theorem id_of_mem_story {c : Connection} {id : SessionId} {depth : Nat} {seen : List Frame}
    {event : Hub.Event} (h : event ∈ c.story id depth seen) : event.id = id := by
  have hmem := (c.story_prefix id depth seen).subset h
  rcases List.mem_append.1 hmem with hmem | hmem
  · rcases List.mem_cons.1 hmem with rfl | hmem
    · rfl
    · obtain ⟨raw, _, rfl⟩ := List.mem_map.1 hmem
      rfl
  · rw [List.mem_singleton.1 hmem]
    rfl

/-- How the frames that a client has sent and the events that the hub has taken up belong
    to a connection that has read some frames. -/
structure Told (id : SessionId) (depth : Nat) (c : Connection) (sent : List Frame)
    (handled : List Hub.Event) (seen : List Frame) : Prop where
  frames : seen ++ c.incoming = sent
  events : handled ++ c.events = c.story id depth seen
  -- Nothing is read before the session begins.
  unread : c.reader = .greeting → seen = []

section

variable {id : SessionId} {depth : Nat} {c changed : Connection} {sent seen : List Frame}
  {handled : List Hub.Event}

/-- An event that waits is about the session of its connection. -/
theorem Told.id_of_mem (h : Told id depth c sent handled seen) {event : Hub.Event}
    (hevent : event ∈ c.events) : event.id = id := by
  have hmem : event ∈ c.story id depth seen := by
    rw [← h.events]
    exact List.mem_append_right handled hevent
  exact id_of_mem_story hmem

/-- A connection is told first. -/
theorem Told.handled_nil (h : Told id depth c sent handled seen) {other : SessionId}
    {peer : String} {given : Nat} {events : List Hub.Event}
    (hevents : c.events = .connect other peer given :: events) : handled = [] := by
  cases handled with
  | nil => rfl
  | cons first handled =>
    exfalso
    have hwhole := c.story_prefix id depth seen
    rw [← h.events, hevents, List.cons_append, opening, List.cons_append] at hwhole
    -- After the first event of a story there are messages and the end.
    have hmem : Hub.Event.connect other peer given ∈
        (seen.filterMap Frame.message?).map (Hub.Event.message id) ++ [.disconnect id] := by
      apply (List.cons_prefix_cons.1 hwhole).2.subset
      exact List.mem_append_right _ List.mem_cons_self
    rcases List.mem_append.1 hmem with hmem | hmem
    · obtain ⟨raw, _, hraw⟩ := List.mem_map.1 hmem
      cases hraw
    · cases List.mem_singleton.1 hmem

/-- Nothing was told before the session begins. -/
theorem Told.handled_of_greeting (h : Told id depth c sent handled seen)
    (hreader : c.reader = .greeting) : handled = [] := by
  have hevents := h.events
  rw [story_of_greeting hreader] at hevents
  exact (List.append_eq_nil_iff.1 hevents).1

/-- The messages that were sent are with the hub, wait for it or are not read yet. -/
theorem Told.texts (h : Told id depth c sent handled seen) (hbegun : handled ≠ []) :
    sent.filterMap Frame.message? = handled.filterMap Hub.Event.raw? ++
      c.events.filterMap Hub.Event.raw? ++ c.incoming.filterMap Frame.message? := by
  have hstory : c.story id depth seen ≠ [] := by
    rw [← h.events]
    exact List.append_ne_nil_of_left_ne_nil hbegun _
  rw [← h.frames, List.filterMap_append, ← filterMap_story hstory, ← h.events,
    List.filterMap_append]

/-- The hub takes up the event that has waited longest. -/
theorem Told.take (h : Told id depth c sent handled seen) {event : Hub.Event}
    {events : List Hub.Event} (hevents : c.events = event :: events) (mailbox : Option Nat) :
    Told id depth { c with events, mailbox } sent (handled ++ [event]) seen where
  frames := h.frames
  events := by
    have htold := h.events
    rw [hevents, ← List.singleton_append, ← List.append_assoc] at htold
    exact htold
  unread := h.unread

end

end Connection

namespace Connection

variable {id : SessionId} {depth : Nat} {c changed : Connection} {action : Relay.Action}

/-- A connection goes on with its story whatever it does. -/
theorem Told.own {sent seen : List Frame} {handled : List Hub.Event}
    (h : Told id depth c sent handled seen) (hown : c.Own id depth action changed)
    (relay : Relay) :
    ∃ seen, Told id depth changed (sent ++ relay.sentIn id action) handled seen := by
  have hframes := h.frames
  have hevents := h.events
  cases hown with
  | greet hreader =>
    have hnone : seen = [] := h.unread hreader
    subst hnone
    rw [story_of_greeting hreader] at hevents
    refine ⟨[], ?_, ?_, nofun⟩
    · rw [← hframes]
      exact (List.append_nil _).symm
    · show handled ++ (c.events ++ [.connect id c.peer depth]) = opening id c.peer depth []
      rw [← List.append_assoc, hevents]
      rfl
  | refuse hreader =>
    rw [story_of_greeting hreader] at hevents
    refine ⟨seen, ?_, hevents, nofun⟩
    rw [← hframes]
    exact (List.append_nil _).symm
  | send frame =>
    refine ⟨seen, ?_, hevents, h.unread⟩
    rw [← hframes, Relay.sentIn, if_pos rfl, List.append_assoc]
    rfl
  | message frame incoming raw hreader hincoming hraw =>
    rw [story_of_reading hreader] at hevents
    refine ⟨seen ++ [frame], ?_, ?_, ?_⟩
    · rw [← hframes, hincoming, ← List.append_cons]
      exact (List.append_nil _).symm
    · show handled ++ (c.events ++ [.message id raw]) = c.story id depth (seen ++ [frame])
      rw [story_of_reading hreader, opening_concat, hraw, ← hevents]
      exact (List.append_assoc _ _ _).symm
    · intro hgreeting
      rw [hreader] at hgreeting
      cases hgreeting
  | skip frame incoming reader hreader hincoming hraw hafter =>
    rw [story_of_reading hreader] at hevents
    have hsame : opening id c.peer depth (seen ++ [frame]) = opening id c.peer depth seen := by
      rw [opening_concat, hraw]
      exact List.append_nil _
    refine ⟨seen ++ [frame], ?_, ?_, ?_⟩
    · rw [← hframes, hincoming, ← List.append_cons]
      exact (List.append_nil _).symm
    · rcases hafter with rfl | ⟨reason, rfl⟩
      · exact hevents.trans hsame.symm
      · exact hevents.trans hsame.symm
    · intro hgreeting
      rcases hafter with rfl | ⟨reason, rfl⟩
      · cases hgreeting
      · cases hgreeting
  | stop _ reason haction hreader =>
    rw [story_of_reading hreader] at hevents
    have hnone : relay.sentIn id action = [] := by
      rcases haction with rfl | rfl
      · rfl
      · rfl
    refine ⟨seen, ?_, hevents, nofun⟩
    rw [hnone, List.append_nil]
    exact hframes
  | finish reason other hreader hwriter =>
    rw [story_of_ended hreader] at hevents
    refine ⟨seen, ?_, ?_, nofun⟩
    · rw [← hframes]
      exact (List.append_nil _).symm
    · show handled ++ (c.events ++ [.disconnect id]) =
        opening id c.peer depth seen ++ [.disconnect id]
      rw [← List.append_assoc, hevents]

end Connection

/-! ## All connections -/

namespace Relay

variable {relay next : Relay} {action : Action} {sent after : SessionId → List Frame}
  {handled later : List Hub.Event}

/-- What clients have sent and the hub has taken up belongs to the connections of a relay. -/
structure Inbound (relay : Relay) (sent : SessionId → List Frame) (handled : List Hub.Event) :
    Prop where
  numbered : ∀ {id c}, relay.connections.get? id = some c → id.number < relay.nextNumber
  -- Nothing comes from clients that were not accepted.
  unknown : ∀ {id}, relay.connections.get? id = none →
    sent id = [] ∧ Hub.eventsOf id handled = []
  told : ∀ {id c}, relay.connections.get? id = some c →
    ∃ seen, c.Told id relay.queueDepth (sent id) (Hub.eventsOf id handled) seen

/-- The next number is free. -/
theorem Inbound.fresh (h : Inbound relay sent handled) :
    relay.connections.get? ⟨relay.nextNumber⟩ = none := by
  cases hfound : relay.connections.get? ⟨relay.nextNumber⟩ with
  | none => rfl
  | some c => exact absurd (h.numbered hfound) (Nat.lt_irrefl relay.nextNumber)

/-- One connection begins or goes on, and what is seen of the others stays the same. -/
theorem Inbound.change (h : Inbound relay sent handled) {id : SessionId} {changed : Connection}
    (hconnections : next.connections = relay.connections.insert id changed)
    (hid : id.number < next.nextNumber) (hnumber : relay.nextNumber ≤ next.nextNumber)
    (hdepth : next.queueDepth = relay.queueDepth)
    (htold : ∃ seen, changed.Told id relay.queueDepth (after id) (Hub.eventsOf id later) seen)
    (hothers : ∀ other, other ≠ id →
      after other = sent other ∧ Hub.eventsOf other later = Hub.eventsOf other handled) :
    Inbound next after later := by
  refine ⟨?_, ?_, ?_⟩
  · intro other found hfound
    rw [hconnections, Table.get?_insert] at hfound
    split at hfound
    · next hsame => exact hsame ▸ hid
    · exact Nat.lt_of_lt_of_le (h.numbered hfound) hnumber
  · intro other hnone
    rw [hconnections, Table.get?_insert] at hnone
    split at hnone
    · cases hnone
    · next hother =>
      obtain ⟨hsent, hevents⟩ := hothers other hother
      rw [hsent, hevents]
      exact h.unknown hnone
  · intro other found hfound
    rw [hconnections, Table.get?_insert] at hfound
    rw [hdepth]
    split at hfound
    · next hsame =>
      cases hfound
      exact hsame ▸ htold
    · next hother =>
      obtain ⟨hsent, hevents⟩ := hothers other hother
      rw [hsent, hevents]
      exact h.told hfound

/-- The hub takes up an event of the session that it comes from. -/
theorem Inbound.id_of_event (h : Inbound relay sent handled) {id : SessionId} {c : Connection}
    {event : Hub.Event} {events : List Hub.Event} (hc : relay.connections.get? id = some c)
    (hevents : c.events = event :: events) : event.id = id := by
  obtain ⟨seen, htold⟩ := h.told hc
  apply htold.id_of_mem
  rw [hevents]
  exact List.mem_cons_self

/-- The hub takes up an event, and the mailbox of its connection may change. -/
theorem Inbound.dispatch (h : Inbound relay sent handled) {id : SessionId} {c : Connection}
    {event : Hub.Event} {events : List Hub.Event} {mailbox : Option Nat}
    (hc : relay.connections.get? id = some c) (hevents : c.events = event :: events)
    (hconnections : next.connections = relay.connections.insert id { c with events, mailbox })
    (hnumber : next.nextNumber = relay.nextNumber) (hdepth : next.queueDepth = relay.queueDepth) :
    Inbound next sent (handled ++ [event]) := by
  have hid : event.id = id := h.id_of_event hc hevents
  obtain ⟨seen, htold⟩ := h.told hc
  have hlt : id.number < next.nextNumber := hnumber ▸ h.numbered hc
  refine h.change hconnections hlt (Nat.le_of_eq hnumber.symm) hdepth ⟨seen, ?_⟩
    fun other hother => ⟨rfl, ?_⟩
  · rw [Hub.eventsOf_append, ← hid, Hub.eventsOf_self, hid]
    exact htold.take hevents mailbox
  · have hnot : event.id ≠ other := by
      rw [hid]
      exact Ne.symm hother
    rw [Hub.eventsOf_append, Hub.eventsOf_other hnot, List.append_nil]

/-- What the hub takes up from a session is a beginning of a story, and what was read is a
    beginning of what was sent. -/
theorem Inbound.story (h : Inbound relay sent handled) (id : SessionId) :
    ∃ peer seen, seen <+: sent id ∧
      Hub.eventsOf id handled <+:
        Connection.opening id peer relay.queueDepth seen ++ [.disconnect id] := by
  cases hc : relay.connections.get? id with
  | none =>
    refine ⟨"", [], List.nil_prefix, ?_⟩
    rw [(h.unknown hc).2]
    exact List.nil_prefix
  | some c =>
    obtain ⟨seen, htold⟩ := h.told hc
    refine ⟨c.peer, seen, ⟨c.incoming, htold.frames⟩, ?_⟩
    have hbegun : Hub.eventsOf id handled <+: c.story id relay.queueDepth seen :=
      ⟨c.events, htold.events⟩
    exact hbegun.trans (c.story_prefix id relay.queueDepth seen)

/-- The messages that the hub takes up from a session are a beginning of those that its
    client has sent. -/
theorem Inbound.texts (h : Inbound relay sent handled) (id : SessionId) :
    Hub.textsOf id handled <+: (sent id).filterMap Frame.message? := by
  obtain ⟨peer, seen, hseen, hevents⟩ := h.story id
  have htexts := hevents.filterMap Hub.Event.raw?
  rw [Connection.filterMap_opening_end] at htexts
  exact htexts.trans (hseen.filterMap Frame.message?)

theorem inbound_of_move (hmove : Move relay action next) (h : Inbound relay sent handled) :
    Inbound next (fun id => sent id ++ relay.sentIn id action)
      (handled ++ relay.eventIn action) := by
  cases hmove with
  | accept peer =>
    obtain ⟨hsent, hevents⟩ := h.unknown h.fresh
    simp only [sentIn, eventIn, List.append_nil]
    refine h.change rfl (Nat.lt_succ_self _) (Nat.le_succ _) rfl ⟨[], ?_⟩ fun other _ => ⟨rfl, rfl⟩
    rw [hsent, hevents]
    exact ⟨rfl, rfl, fun _ => rfl⟩
  | own _ id c changed hc hown =>
    obtain ⟨seen, htold⟩ := h.told hc
    obtain ⟨hunseen, hsent⟩ := hown.unseen relay
    rw [hunseen.event, List.append_nil]
    refine h.change rfl (h.numbered hc) (Nat.le_refl _) rfl (htold.own hown relay)
      fun other hother => ⟨?_, rfl⟩
    rw [hsent other hother, List.append_nil]
  | writer _ id c changed mailboxes hc hwrites =>
    obtain ⟨hunseen, hsent⟩ := hwrites.unseen relay
    obtain ⟨seen, htold⟩ := h.told hc
    simp only [hunseen.event, hsent, List.append_nil]
    refine h.change rfl (h.numbered hc) (Nat.le_refl _) rfl ⟨seen, ?_⟩ fun other _ => ⟨rfl, rfl⟩
    cases hwrites with
    | _ => exact ⟨htold.frames, htold.events, htold.unread⟩
  | register id other c peer depth events new hround hc hevents hnew =>
    rw [eventIn_dispatch hc hevents]
    simp only [sentIn, List.append_nil]
    exact h.dispatch hc hevents rfl rfl rfl
  | handle id c event events hround hc hevents hother =>
    rw [eventIn_dispatch hc hevents]
    simp only [sentIn, List.append_nil]
    exact h.dispatch hc hevents rfl rfl rfl
  | work work hub hstep =>
    simp only [sentIn, eventIn, List.append_nil]
    exact ⟨h.numbered, h.unknown, h.told⟩
  | wane _ running listening attending haction =>
    obtain ⟨hunseen, hsent⟩ := unseen_of_wane haction relay
    simp only [hunseen.event, hsent, List.append_nil]
    exact ⟨h.numbered, h.unknown, h.told⟩

end Relay

/-! ## Accepted messages -/

namespace Relay

variable {relay next : Relay} {action : Action} {sent : SessionId → List Frame}
  {handled : List Hub.Event} {heard : List (SessionId × String)}

theorem heardIn_of_nil (h : relay.eventIn action = []) : relay.heardIn action = [] := by
  rw [heardIn, h]
  rfl

theorem heardIn_dispatch {id : SessionId} {c : Connection} {event : Hub.Event}
    {events : List Hub.Event} (hc : relay.connections.get? id = some c)
    (hevents : c.events = event :: events) :
    relay.heardIn (.dispatch id) = (relay.hub.heard? event).toList := by
  rw [heardIn, eventIn_dispatch hc hevents]
  cases h : relay.hub.heard? event with
  | none => rw [List.filterMap_cons_none h, List.filterMap_nil, Option.toList_none]
  | some entry => rw [List.filterMap_cons_some h, List.filterMap_nil, Option.toList_some]

/-- Nothing was taken up from a session before its connection. -/
theorem Inbound.first (h : Inbound relay sent handled) {id : SessionId} {c : Connection}
    {event : Hub.Event} {events : List Hub.Event} (hc : relay.connections.get? id = some c)
    (hevents : c.events = event :: events) {peer : String} {depth : Nat}
    (hconnect : event = .connect event.id peer depth) : Hub.eventsOf event.id handled = [] := by
  rw [h.id_of_event hc hevents]
  obtain ⟨seen, htold⟩ := h.told hc
  rw [hconnect] at hevents
  exact htold.handled_nil hevents

theorem hearing_of_move (hmove : Move relay action next) (hin : Inbound relay sent handled)
    (h : Hub.Hearing relay.hub.sessions handled heard) :
    Hub.Hearing next.hub.sessions (handled ++ relay.eventIn action)
      (heard ++ relay.heardIn action) := by
  -- Only the hub's own steps have to do with sessions.
  have hapart : relay.eventIn action = [] → next.hub.sessions = relay.hub.sessions →
      Hub.Hearing next.hub.sessions (handled ++ relay.eventIn action)
        (heard ++ relay.heardIn action) := by
    intro hnone hsame
    rw [heardIn_of_nil hnone, hnone, hsame, List.append_nil, List.append_nil]
    exact h
  cases hmove with
  | accept peer => exact hapart rfl rfl
  | own _ id c changed hc hown => exact hapart (hown.unseen relay).1.event rfl
  | writer _ id c changed mailboxes hc hwrites => exact hapart (hwrites.unseen relay).1.event rfl
  | register id other c peer depth events new hround hc hevents hnew =>
    rw [eventIn_dispatch hc hevents, heardIn_dispatch hc hevents]
    exact h.handle _ fun _ _ hconnect => hin.first hc hevents hconnect
  | handle id c event events hround hc hevents hother =>
    rw [eventIn_dispatch hc hevents, heardIn_dispatch hc hevents]
    exact h.handle event fun _ _ hconnect => hin.first hc hevents hconnect
  | work work hub hstep =>
    have hevent : relay.eventIn (.hub work) = [] := rfl
    rw [heardIn_of_nil hevent, hevent, List.append_nil, List.append_nil]
    refine h.mono fun id hopen => ?_
    obtain ⟨session, hsession⟩ := Option.isSome_iff_exists.1 hopen
    exact Option.isSome_iff_exists.2 ⟨session, Hub.sessions_of_work work.isWork hstep hsession⟩
  | wane _ running listening attending haction =>
    exact hapart (unseen_of_wane haction relay).1.event rfl

/-- The updates among some accepted messages, in order. -/
def updatesOf (heard : List (SessionId × String)) : List String :=
  heard.filterMap fun entry => Request.update? entry.2

theorem updatesOf_append (xs ys : List (SessionId × String)) :
    updatesOf (xs ++ ys) = updatesOf xs ++ updatesOf ys := List.filterMap_append

/-- Only messages that are accepted change the store. -/
theorem store_of_move (hmove : Move relay action next) :
    next.hub.store = relay.hub.store.replay (updatesOf (relay.heardIn action)) := by
  have hapart : relay.eventIn action = [] → next.hub.store = relay.hub.store →
      next.hub.store = relay.hub.store.replay (updatesOf (relay.heardIn action)) := by
    intro hnone hsame
    rw [heardIn_of_nil hnone, hsame]
    rfl
  cases hmove with
  | accept peer => exact hapart rfl rfl
  | own _ id c changed hc hown => exact hapart (hown.unseen relay).1.event rfl
  | writer _ id c changed mailboxes hc hwrites => exact hapart (hwrites.unseen relay).1.event rfl
  | register id other c peer depth events new hround hc hevents hnew =>
    rw [heardIn_dispatch hc hevents]
    exact relay.hub.store_of_event _
  | handle id c event events hround hc hevents hother =>
    rw [heardIn_dispatch hc hevents]
    exact relay.hub.store_of_event event
  | work work hub hstep =>
    exact hapart rfl (Hub.store_of_work work.isWork hstep)
  | wane _ running listening attending haction =>
    exact hapart (unseen_of_wane haction relay).1.event rfl

end Relay

end ShowRelay
