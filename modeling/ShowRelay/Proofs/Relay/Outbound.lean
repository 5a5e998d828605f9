/-
  ShowRelay.Proofs.Relay.Outbound

  The way of a message from the hub to a client. Each connection has a mailbox
  of its own from the moment at which the hub takes it up. What the hub and its
  snapshot writer put there is what the mailbox has held, what the writer took
  is the beginning of that, and what was sent is the beginning of what was taken
  (`Relay.Outbound`). Only a message that could not be sent is taken and not
  sent, and it is the last.
-/

import ShowRelay.Proofs.Relay.Inbound

namespace ShowRelay

/-! ## One connection and its mailbox -/

/-- A receiver takes the message that waited longest. -/
theorem Mailbox.exists_of_take? {m n : Mailbox} (h : m.take? = some n) :
    ∃ d, m.queued.head? = some d ∧ n.taken = m.taken ++ [d] := by
  unfold take? at h
  split at h
  · next d queued hattended hqueued =>
    cases h
    exact ⟨d, by rw [hqueued, List.head?_cons], rfl⟩
  · cases h

namespace Connection

/-- What was put into the mailbox of a connection, and how much of that was sent. -/
structure Sends (c : Connection) (mailbox : Mailbox) (puts : List Delivery) : Prop where
  contents : mailbox.contents = puts
  written : c.written <+: mailbox.taken
  -- Nothing is lost while the writer runs.
  complete : c.writer = .running → c.written = mailbox.taken

variable {c changed : Connection} {id : SessionId} {action : Relay.Action} {depth : Nat}

/-- A connection by itself has no access to mailboxes. Its writer begins with the session. -/
theorem Own.apart (h : c.Own id depth action changed) :
    changed.mailbox = c.mailbox ∧ changed.written = c.written ∧
      (changed.writer = c.writer ∨ c.reader = .greeting) := by
  cases h with
  | greet hreader => exact ⟨rfl, rfl, .inr hreader⟩
  | _ => exact ⟨rfl, rfl, .inl rfl⟩

variable {mailboxes after : List Mailbox} {puts : List Delivery}

theorem Writes.mailbox_eq (h : c.Writes mailboxes id action changed after) :
    changed.mailbox = c.mailbox := by
  cases h with
  | _ => rfl

/-- A writer has no access to the mailboxes of others. -/
theorem Writes.getElem?_other (h : c.Writes mailboxes id action changed after) {other : Nat}
    (hother : c.mailbox ≠ some other) : after[other]? = mailboxes[other]? := by
  have hne : ∀ {number}, c.mailbox = some number → number ≠ other := by
    rintro number hnumber rfl
    exact hother hnumber
  cases h with
  | write number mailbox taken delivery hwriter hnumber =>
    exact List.getElem?_set_ne (hne hnumber)
  | lose number mailbox taken hwriter hnumber =>
    rw [List.getElem?_modify_ne _ _ (hne hnumber), List.getElem?_set_ne (hne hnumber)]
  | leave _ reason number haction hwriter hnumber =>
    exact List.getElem?_modify_ne _ _ (hne hnumber)
  | quit => rfl

/-- What a writer does is in order with its mailbox. -/
theorem Writes.sends (h : c.Writes mailboxes id action changed after) {number : Nat}
    (hnumber : c.mailbox = some number) {mailbox : Mailbox}
    (hat : mailboxes[number]? = some mailbox) (hsends : c.Sends mailbox puts) :
    ∃ last, after[number]? = some last ∧ changed.Sends last puts := by
  have hlt : number < mailboxes.length := (List.getElem?_eq_some_iff.1 hat).1
  cases h with
  | write held found taken delivery hwriter hheld hfound hhead htake =>
    cases hheld.symm.trans hnumber
    cases hfound.symm.trans hat
    obtain ⟨first, hfirst, htaken⟩ := Mailbox.exists_of_take? htake
    cases hfirst.symm.trans hhead
    have hwritten : c.written ++ [delivery] = taken.taken := by
      rw [htaken, hsends.complete hwriter]
    refine ⟨taken, List.getElem?_set_self hlt, ?_, ?_, fun _ => hwritten⟩
    · rw [Mailbox.contents_take? htake, hsends.contents]
    · exact hwritten ▸ List.prefix_rfl
  | lose held found taken hwriter hheld hfound htake =>
    cases hheld.symm.trans hnumber
    cases hfound.symm.trans hat
    obtain ⟨first, _, htaken⟩ := Mailbox.exists_of_take? htake
    refine ⟨taken.leave, ?_, ?_, ?_, nofun⟩
    · rw [List.getElem?_modify_eq, List.getElem?_set_self hlt]
      rfl
    · rw [Mailbox.contents_leave, Mailbox.contents_take? htake, hsends.contents]
    · show c.written <+: taken.taken
      rw [htaken]
      exact hsends.written.trans (List.prefix_append _ _)
  | leave _ reason held haction hwriter hheld =>
    cases hheld.symm.trans hnumber
    refine ⟨mailbox.leave, ?_, hsends.contents, hsends.written, nofun⟩
    rw [List.getElem?_modify_eq, hat]
    rfl
  | quit _ reason haction hwriter hnone =>
    rw [hnone] at hnumber
    cases hnumber

/-- A writer without a mailbox sends nothing. -/
theorem Writes.written_of_none (h : c.Writes mailboxes id action changed after)
    (hnone : c.mailbox = none) : changed.written = c.written := by
  cases h with
  | write number mailbox taken delivery hwriter hnumber =>
    rw [hnone] at hnumber
    cases hnumber
  | _ => rfl

end Connection

/-! ## All connections -/

namespace Relay

/-- What was put into the mailboxes of connections and what their writers have sent. -/
structure Outbound (relay : Relay) (handled : List Hub.Event) (puts : SessionId → List Delivery) :
    Prop where
  -- There is no mailbox before the hub has taken up the connection.
  early : ∀ {id}, Hub.eventsOf id handled = [] → relay.queueOf id = none
  unserved : ∀ {id}, relay.queueOf id = none → puts id = []
  idle : ∀ {id c}, relay.connections.get? id = some c → c.mailbox = none → c.written = []
  served : ∀ {id c number}, relay.connections.get? id = some c → c.mailbox = some number →
    ∃ mailbox, relay.hub.mailboxes[number]? = some mailbox ∧ c.Sends mailbox (puts id)
  distinct : ∀ {id other number}, relay.queueOf id = some number →
    relay.queueOf other = some number → id = other
  -- What the hub puts down for a session gets into the mailbox of its connection.
  registered : ∀ {id session}, relay.hub.sessions.get? id = some session →
    relay.queueOf id = some session.mailbox

variable {relay next : Relay} {action : Action} {handled later : List Hub.Event}
  {puts : SessionId → List Delivery}

theorem queueOf_of_get? {id : SessionId} {c : Connection}
    (h : relay.connections.get? id = some c) : relay.queueOf id = c.mailbox := by
  rw [queueOf, h, Option.bind_some]

theorem queueOf_insert {id : SessionId} {changed : Connection}
    (hconnections : next.connections = relay.connections.insert id changed) (other : SessionId) :
    next.queueOf other = if other = id then changed.mailbox else relay.queueOf other := by
  rw [queueOf, hconnections, Table.get?_insert]
  split
  · rfl
  · rfl

/-- Mailboxes stay with their connections, and no session is opened. -/
theorem Outbound.keep (h : Outbound relay handled puts)
    (hearly : ∀ id, Hub.eventsOf id later = [] → Hub.eventsOf id handled = [])
    (hqueue : ∀ id, next.queueOf id = relay.queueOf id)
    (hsessions : ∀ id session, next.hub.sessions.get? id = some session →
      relay.hub.sessions.get? id = some session)
    (hidle : ∀ id c, next.connections.get? id = some c → c.mailbox = none → c.written = [])
    (hserved : ∀ id c number, next.connections.get? id = some c → c.mailbox = some number →
      ∃ mailbox, next.hub.mailboxes[number]? = some mailbox ∧ c.Sends mailbox (puts id)) :
    Outbound next later puts where
  early hnone := (hqueue _).trans (h.early (hearly _ hnone))
  unserved hnone := h.unserved ((hqueue _).symm.trans hnone)
  idle := hidle _ _
  served := hserved _ _ _
  distinct hid hother := h.distinct ((hqueue _).symm.trans hid) ((hqueue _).symm.trans hother)
  registered hsession := (hqueue _).trans (h.registered (hsessions _ _ hsession))

/-- One connection goes on with the mailbox that it has. -/
theorem Outbound.change (h : Outbound relay handled puts) {id : SessionId}
    {c changed : Connection} (hc : relay.connections.get? id = some c)
    (hconnections : next.connections = relay.connections.insert id changed)
    (hmailbox : changed.mailbox = c.mailbox)
    (hearly : ∀ id, Hub.eventsOf id later = [] → Hub.eventsOf id handled = [])
    (hsessions : ∀ id session, next.hub.sessions.get? id = some session →
      relay.hub.sessions.get? id = some session)
    (hidle : c.mailbox = none → c.written = [] → changed.written = [])
    (hown : ∀ {number mailbox}, c.mailbox = some number →
      relay.hub.mailboxes[number]? = some mailbox → c.Sends mailbox (puts id) →
        ∃ last, next.hub.mailboxes[number]? = some last ∧ changed.Sends last (puts id))
    (hothers : ∀ {number}, c.mailbox ≠ some number →
      next.hub.mailboxes[number]? = relay.hub.mailboxes[number]?) :
    Outbound next later puts := by
  refine h.keep hearly ?_ hsessions ?_ ?_
  · intro other
    rw [queueOf_insert hconnections]
    split
    · next hsame => rw [hsame, hmailbox, queueOf_of_get? hc]
    · rfl
  · intro other found hfound hnone
    rw [hconnections, Table.get?_insert] at hfound
    split at hfound
    · cases hfound
      rw [hmailbox] at hnone
      exact hidle hnone (h.idle hc hnone)
    · exact h.idle hfound hnone
  · intro other found number hfound hnumber
    rw [hconnections, Table.get?_insert] at hfound
    split at hfound
    · next hsame =>
      cases hfound
      rw [hmailbox] at hnumber
      obtain ⟨mailbox, hat, hsends⟩ := h.served hc hnumber
      exact hsame ▸ hown hnumber hat hsends
    · next hother =>
      -- No two connections have the same mailbox.
      have hne : c.mailbox ≠ some number := by
        intro hsame
        rw [← queueOf_of_get? hc] at hsame
        rw [← queueOf_of_get? hfound] at hnumber
        exact hother (h.distinct hnumber hsame)
      rw [hothers hne]
      exact h.served hfound hnumber

/-- The hub takes up a connection and gives it the next mailbox. -/
theorem Outbound.register (h : Outbound relay handled puts) {id : SessionId} {peer : String}
    {depth : Nat} {c changed : Connection} {new : Mailbox}
    (hc : relay.connections.get? id = some c)
    (hconnections : next.connections = relay.connections.insert id changed)
    (hmailbox : changed.mailbox = some relay.hub.mailboxes.length)
    (hwritten : changed.written = c.written)
    (hmailboxes : next.hub.mailboxes = relay.hub.mailboxes ++ [new])
    (hsessions : next.hub.sessions =
      relay.hub.sessions.insert id ⟨peer, relay.hub.mailboxes.length⟩)
    (hfirst : Hub.eventsOf id handled = [])
    (hnew : new = { depth } ∨ new = Mailbox.leave { depth }) :
    Outbound next (handled ++ [.connect id peer depth]) puts := by
  have hnone : relay.queueOf id = none := h.early hfirst
  have hputs : puts id = [] := h.unserved hnone
  have hnothing : changed.written = [] := by
    rw [queueOf_of_get? hc] at hnone
    rw [hwritten]
    exact h.idle hc hnone
  -- The mailboxes of others are older.
  have hold : ∀ {other number}, relay.queueOf other = some number →
      number < relay.hub.mailboxes.length := by
    intro other number hother
    obtain ⟨found, hfound, hnumber⟩ := Option.bind_eq_some_iff.1 hother
    obtain ⟨mailbox, hat, _⟩ := h.served hfound hnumber
    exact (List.getElem?_eq_some_iff.1 hat).1
  have hqueue : ∀ other, next.queueOf other =
      if other = id then some relay.hub.mailboxes.length else relay.queueOf other := by
    intro other
    rw [queueOf_insert hconnections, hmailbox]
  refine ⟨?_, ?_, ?_, ?_, ?_, ?_⟩
  · intro other hevents
    rw [Hub.eventsOf_append, List.append_eq_nil_iff] at hevents
    have hother : other ≠ id := by
      rintro rfl
      cases (Hub.eventsOf_self (.connect other peer depth)).symm.trans hevents.2
    rw [hqueue, if_neg hother]
    exact h.early hevents.1
  · intro other hwithout
    rw [hqueue] at hwithout
    split at hwithout
    · cases hwithout
    · exact h.unserved hwithout
  · intro other found hfound hwithout
    rw [hconnections, Table.get?_insert] at hfound
    split at hfound
    · cases hfound
      exact hnothing
    · exact h.idle hfound hwithout
  · intro other found number hfound hnumber
    rw [hconnections, Table.get?_insert] at hfound
    rw [hmailboxes]
    split at hfound
    · next hsame =>
      cases hfound
      cases hmailbox.symm.trans hnumber
      have hblank : new.contents = [] ∧ new.taken = [] := by
        rcases hnew with rfl | rfl
        · exact ⟨rfl, rfl⟩
        · exact ⟨rfl, rfl⟩
      refine ⟨new, List.getElem?_concat_length, ?_, ?_, fun _ => ?_⟩
      · rw [hsame, hputs, hblank.1]
      · rw [hnothing]
        exact List.nil_prefix
      · rw [hnothing, hblank.2]
    · obtain ⟨mailbox, hat, hsends⟩ := h.served hfound hnumber
      have hlt := (List.getElem?_eq_some_iff.1 hat).1
      exact ⟨mailbox, (List.getElem?_append_left hlt).trans hat, hsends⟩
  · intro one other number hone hother
    rw [hqueue] at hone hother
    split at hone
    · next hsame =>
      split at hother
      · next hsame' => rw [hsame, hsame']
      · cases hone
        exact absurd (hold hother) (Nat.lt_irrefl _)
    · split at hother
      · cases hother
        exact absurd (hold hone) (Nat.lt_irrefl _)
      · exact h.distinct hone hother
  · intro other session hsession
    rw [hsessions, Table.get?_insert] at hsession
    rw [hqueue]
    split at hsession
    · next hsame =>
      cases hsession
      rw [if_pos hsame]
    · next hother =>
      rw [if_neg hother]
      exact h.registered hsession

theorem outbound_of_move (hmove : Move relay action next) {sent : SessionId → List Frame}
    (hin : Inbound relay sent handled) (h : Outbound relay handled puts) :
    Outbound next (handled ++ relay.eventIn action) fun id => puts id ++ relay.putIn id action := by
  have hearly : ∀ id, Hub.eventsOf id (handled ++ relay.eventIn action) = [] →
      Hub.eventsOf id handled = [] := by
    intro id hnone
    rw [Hub.eventsOf_append, List.append_eq_nil_iff] at hnone
    exact hnone.1
  cases hmove with
  | accept peer =>
    have hfresh := hin.fresh
    simp only [putIn, List.append_nil]
    refine h.keep hearly ?_ (fun _ _ hsession => hsession) ?_ ?_
    · intro other
      rw [queueOf_insert rfl]
      split
      · next hsame => rw [hsame, queueOf, hfresh, Option.bind_none]
      · rfl
    · intro other found hfound hnone
      rw [Table.get?_insert] at hfound
      split at hfound
      · cases hfound
        rfl
      · exact h.idle hfound hnone
    · intro other found number hfound hnumber
      rw [Table.get?_insert] at hfound
      split at hfound
      · cases hfound
        cases hnumber
      · exact h.served hfound hnumber
  | own _ id c changed hc hown =>
    obtain ⟨hmailbox, hwritten, hwriter⟩ := hown.apart
    simp only [(hown.unseen relay).1.put, List.append_nil]
    refine h.change hc rfl hmailbox hearly (fun _ _ hsession => hsession) ?_ ?_ (fun _ => rfl)
    · intro _ hnone
      exact hwritten.trans hnone
    · intro number mailbox hnumber hat hsends
      refine ⟨mailbox, hat, hsends.contents, hwritten ▸ hsends.written, fun hrunning => ?_⟩
      rcases hwriter with hsame | hgreeting
      · rw [hwritten]
        exact hsends.complete (hsame ▸ hrunning)
      · -- A connection that has a mailbox has begun.
        obtain ⟨seen, htold⟩ := hin.told hc
        have hnone := h.early (htold.handled_of_greeting hgreeting)
        rw [queueOf_of_get? hc, hnumber] at hnone
        cases hnone
  | writer _ id c changed mailboxes hc hwrites =>
    simp only [(hwrites.unseen relay).1.put, List.append_nil]
    refine h.change hc rfl hwrites.mailbox_eq hearly (fun _ _ hsession => hsession) ?_ ?_ ?_
    · intro hnone hwritten
      exact (hwrites.written_of_none hnone).trans hwritten
    · intro number mailbox hnumber hat hsends
      exact hwrites.sends hnumber hat hsends
    · intro number hother
      exact hwrites.getElem?_other hother
  | register id other c peer depth events new hround hc hevents hnew =>
    simp only [putIn, List.append_nil]
    rw [eventIn_dispatch hc hevents] at hearly ⊢
    have hid : other = id := hin.id_of_event hc hevents
    subst hid
    exact h.register hc rfl rfl rfl rfl (relay.hub.sessions_connect other peer depth)
      (hin.first hc hevents rfl) hnew
  | handle id c event events hround hc hevents hother =>
    obtain ⟨hmailboxes, hsessions⟩ := relay.hub.apart_of_event hother
    simp only [putIn, List.append_nil]
    refine h.change hc rfl rfl hearly (fun _ _ => hsessions) (fun _ hnone => hnone) ?_ ?_
    · intro number mailbox hnumber hat hsends
      refine ⟨mailbox, ?_, hsends.contents, hsends.written, hsends.complete⟩
      exact hmailboxes ▸ hat
    · intro number _
      exact congrArg (·[number]?) hmailboxes
  | work work hub hstep =>
    refine ⟨fun hnone => h.early (hearly _ hnone), ?_, h.idle, ?_, h.distinct, ?_⟩
    · intro id hnone
      have hqueue : relay.queueOf id = none := hnone
      rw [h.unserved hqueue, putIn, hqueue]
      rfl
    · intro id c number hc hnumber
      obtain ⟨mailbox, hat, hsends⟩ := h.served hc hnumber
      have hqueue : relay.queueOf id = some number := (queueOf_of_get? hc).trans hnumber
      refine ⟨mailbox.putAll (relay.hub.putIn number work.action), ?_, ?_, hsends.written,
        hsends.complete⟩
      · exact (Hub.mailbox_of_work work.isWork hstep number).trans (congrArg _ hat)
      · rw [Mailbox.contents_putAll, hsends.contents, putIn, hqueue]
        rfl
    · intro id session hsession
      exact h.registered (Hub.sessions_of_work work.isWork hstep hsession)
  | wane _ running listening attending haction =>
    simp only [(unseen_of_wane haction relay).1.put, List.append_nil]
    exact h.keep hearly (fun _ => rfl) (fun _ _ hsession => hsession) (fun _ _ => h.idle)
      (fun _ _ _ => h.served)

/-- A mailbox holds what was put into it. -/
theorem Outbound.held (h : Outbound relay handled puts) {id : SessionId} {number : Nat}
    (hqueue : relay.queueOf id = some number) :
    ∃ mailbox, relay.hub.mailboxes[number]? = some mailbox ∧ mailbox.contents = puts id := by
  obtain ⟨c, hc, hnumber⟩ := Option.bind_eq_some_iff.1 hqueue
  obtain ⟨mailbox, hat, hsends⟩ := h.served hc hnumber
  exact ⟨mailbox, hat, hsends.contents⟩

/-- What was sent is a beginning of what was put. -/
theorem Outbound.written (h : Outbound relay handled puts) {id : SessionId} {c : Connection}
    (hc : relay.connections.get? id = some c) : c.written <+: puts id := by
  cases hnumber : c.mailbox with
  | none =>
    rw [h.idle hc hnumber]
    exact List.nil_prefix
  | some number =>
    obtain ⟨mailbox, _, hsends⟩ := h.served hc hnumber
    have htaken : mailbox.taken <+: puts id := by
      rw [← hsends.contents]
      exact List.prefix_append mailbox.taken mailbox.queued
    exact hsends.written.trans htaken

/-- As long as the writer runs, what was put was sent or waits. -/
theorem Outbound.outward (h : Outbound relay handled puts) {id : SessionId} {c : Connection}
    (hc : relay.connections.get? id = some c) {number : Nat} {mailbox : Mailbox}
    (hnumber : c.mailbox = some number) (hat : relay.hub.mailboxes[number]? = some mailbox)
    (hwriter : c.writer = .running) : puts id = c.written ++ mailbox.queued := by
  obtain ⟨found, hfound, hsends⟩ := h.served hc hnumber
  cases hfound.symm.trans hat
  rw [← hsends.contents, hsends.complete hwriter, Mailbox.contents]

end Relay

end ShowRelay
