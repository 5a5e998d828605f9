/-
  ShowRelay.Proofs.Hub.Eviction

  Who is open. A session is open if the last that happened to it was that it connected:
  since then it was neither disconnected nor missed by a round (`Hub.Turn`). Between
  events this is exact. While a round lasts the sessions that it has missed are still
  open, since they are closed all at once at its end, and the invariant is about those
  that will remain (`Hub.Remains`).

  A hub misses a session only on account of the message of the event that it took up
  last (`Hub.Roster.offered`), and nothing but such a round closes a session that
  is not disconnected or replaced (`Hub.Roster.closed`). So queues without room,
  snapshots that cannot be written and answers that nobody can receive close none.
-/

import ShowRelay.Proofs.Hub.Broadcast
import ShowRelay.Proofs.Hub.Rounds

namespace ShowRelay.Hub

variable {σ : Type}

/-! ## Who remains -/

/-- The sessions that will be closed when the round at hand is over. -/
def failed (hub : Hub σ) : List SessionId := hub.round.elim [] Round.failed

/-- A session is open, and will be when the round at hand is over. -/
def Remains (hub : Hub σ) (id : SessionId) : Prop := hub.isOpen id = true ∧ id ∉ hub.failed

variable {hub next first last : Hub σ} {event : Event} {id : SessionId}

theorem failed_of_rest (h : hub.round = none) : hub.failed = [] := by
  rw [failed, h]
  rfl

theorem failed_of_round {round : Round} (h : hub.round = some round) :
    hub.failed = round.failed := by
  rw [failed, h]
  rfl

theorem remains_of_rest (h : hub.round = none) : hub.Remains id ↔ hub.isOpen id = true := by
  rw [Remains, failed_of_rest h]
  exact and_iff_left List.not_mem_nil

theorem remains_congr (hsessions : next.sessions = hub.sessions)
    (hfailed : next.failed = hub.failed) : next.Remains id ↔ hub.Remains id := by
  rw [Remains, Remains, isOpen, isOpen, hsessions, hfailed]

/-- At its end a round closes the sessions that it has missed. -/
theorem remains_conclude {round : Round} (hround : hub.round = some round)
    (hrest : next.round = none)
    (hsessions : next.sessions = round.failed.foldl Table.erase hub.sessions) :
    next.Remains id ↔ hub.Remains id := by
  rw [remains_of_rest hrest, Remains, failed_of_round hround, isOpen_iff, isOpen_iff, hsessions]
  simp only [Table.get?_foldl_erase]
  by_cases hid : id ∈ round.failed
  · simp [hid]
  · simp [hid]

section

variable [Sink σ] {action : Action}

/-- A step that decides nothing about a session. -/
theorem remains_of_quiet (hstep : hub.step action = some next) (hc : hub.Coherent)
    (hquiet : action.event? = none) (hnone : hub.turnIn id action = []) :
    next.Remains id ↔ hub.Remains id := by
  have hmove := move_of_step hstep
  have haside : action.isAside = true → (next.Remains id ↔ hub.Remains id) := by
    intro haside
    obtain ⟨hround, hsessions, -⟩ := apart_of_aside hmove hc haside
    exact remains_congr hsessions (by rw [failed, hround, failed])
  cases hmove with
  | passOn round raw log hround hpending hdelivery => exact remains_conclude hround rfl rfl
  | settle round text log hround hpending hdelivery => exact remains_conclude hround rfl rfl
  | pass round other rest hround hpending hmailbox =>
    exact remains_congr rfl (failed_of_round hround).symm
  | miss round other rest number mailbox hround hpending hmailbox hattended =>
    have hmisses : hub.misses other = true :=
      misses_iff.2 ⟨round, rest, number, mailbox, hround, hpending, hmailbox, hattended⟩
    have hne : id ≠ other := by
      rintro rfl
      rw [turnIn, if_pos hmisses] at hnone
      cases hnone
    have hfailed : ∀ hub' : Hub σ, hub'.sessions = hub.sessions →
        hub'.failed = round.failed ++ [other] → (hub'.Remains id ↔ hub.Remains id) := by
      intro hub' hsessions hfailed
      rw [Remains, Remains, isOpen, isOpen, hsessions, hfailed, failed_of_round hround,
        List.mem_append, List.mem_singleton, not_or, and_iff_left hne]
    exact hfailed _ rfl rfl
  | deliver _ round other rest number mailbox changed haction hround hpending hmailbox haccepts =>
    exact remains_congr rfl (failed_of_round hround).symm
  | wait round log hround hpending => exact remains_congr rfl (failed_of_round hround).symm
  | reply _ _ _ _ haction =>
    rcases haction with rfl | rfl
    · exact haside rfl
    · exact haside rfl
  | write => exact haside rfl
  | drop => exact haside rfl
  | take => exact haside rfl
  | leave => exact haside rfl
  | _ => cases hquiet

/-- An event decides about a session only if it is its connection or disconnection. -/
theorem remains_of_handle (event : Event) (hrest : hub.round = none) (id : SessionId) :
    (hub.handle event).Remains id ↔
      if hub.turnIn id (.handle event) = [] then hub.Remains id
      else hub.turnIn id (.handle event) = [.opened] := by
  rw [remains_of_rest hrest]
  cases event with
  | connect other peer depth =>
    have hround : (hub.handle (.connect other peer depth)).round = none := by
      simp only [handle, connect]
      split
      · exact hrest
      · exact hrest
    rw [remains_of_rest hround, isOpen_iff, isOpen_iff, sessions_connect, turnIn,
      Table.get?_insert]
    by_cases hid : other = id
    · simp [hid]
    · simp [hid, Ne.symm hid]
  | message other raw =>
    obtain ⟨hsessions, -⟩ := hub.apart_of_message other raw
    have hfailed : (hub.handle (.message other raw)).failed = [] := by
      cases hround : (hub.handle (.message other raw)).round with
      | none => exact failed_of_rest hround
      | some round =>
        rw [failed_of_round hround]
        exact (offers_of_handle hrest hround).1
    rw [Remains, hfailed, isOpen, isOpen, hsessions]
    exact and_iff_left List.not_mem_nil
  | disconnect other =>
    have hround : (hub.handle (.disconnect other)).round = none := by
      simp only [handle, disconnect]
      split
      · exact hrest
      · exact hrest
    rw [remains_of_rest hround, isOpen_iff, isOpen_iff, sessions_disconnect, turnIn,
      Table.get?_erase]
    by_cases hid : other = id
    · simp [hid]
    · simp [hid, Ne.symm hid]

/-- Every step decides about a session as it says, or not at all. -/
theorem remains_of_step (hstep : hub.step action = some next) (hc : hub.Coherent)
    (id : SessionId) :
    next.Remains id ↔
      if hub.turnIn id action = [] then hub.Remains id else hub.turnIn id action = [.opened] := by
  cases haction : action.event? with
  | some event =>
    cases action with
    | handle other =>
      simp only [step] at hstep
      split at hstep
      · next hrest =>
        cases hstep
        exact remains_of_handle other (Option.isNone_iff_eq_none.1 hrest) id
      · cases hstep
    | _ => cases haction
  | none =>
    by_cases hmissed : action = .proceed ∧ hub.misses id = true
    · obtain ⟨rfl, hmisses⟩ := hmissed
      obtain ⟨round, rest, -, -, rfl⟩ := proceed_of_misses hmisses hstep
      simp [turnIn, hmisses, Remains, failed]
    · have hnone : hub.turnIn id action = [] := by rw [turnIn_of_quiet haction, if_neg hmissed]
      rw [if_pos hnone]
      exact remains_of_quiet hstep hc haction hnone

omit [Sink σ] in
/-- A step decides about a session once at most. -/
theorem turnIn_eq_nil_or (hub : Hub σ) (id : SessionId) (action : Action) :
    hub.turnIn id action = [] ∨ ∃ turn, hub.turnIn id action = [turn] := by
  unfold turnIn
  split
  · split
    · exact .inr ⟨_, rfl⟩
    · exact .inl rfl
  · split
    · exact .inr ⟨_, rfl⟩
    · exact .inl rfl
  · split
    · exact .inr ⟨_, rfl⟩
    · exact .inl rfl
  · exact .inl rfl

/-- Who remains is decided by the last turn. -/
theorem remains_of_run {store : Store} {archive : Archive} {sinks : List σ}
    {actions : List Action} (hrun : (start store archive sinks).run actions = some hub)
    (id : SessionId) :
    hub.Remains id ↔ ((start store archive sinks).turns id actions).getLast? = some .opened := by
  refine run_induction (motive := fun actions hub => hub.Remains id ↔
    ((start store archive sinks).turns id actions).getLast? = some .opened) ?_ ?_ hrun
  · constructor
    · rintro ⟨hopen, -⟩
      cases hopen
    · intro hlast
      cases hlast
  · intro actions hub action next hactions h hstep _
    have hturns : (start store archive sinks).turns id (actions ++ [action]) =
        (start store archive sinks).turns id actions ++ hub.turnIn id action :=
      history_concat (turnIn id) action hactions
    rw [remains_of_step hstep (coherent_of_run hactions), hturns]
    rcases turnIn_eq_nil_or hub id action with hnone | ⟨turn, hturn⟩
    · rw [if_pos hnone, hnone, List.append_nil]
      exact h
    · rw [hturn, if_neg (List.cons_ne_nil _ _), List.getLast?_concat, List.cons.injEq,
        Option.some.injEq, and_iff_left rfl]

/-! ## On account of what sessions are missed -/

/-- A round is about the event that was taken up last. -/
theorem exists_event (hc : first.Coherent) (hrest : first.round = none) {actions : List Action}
    (hrun : first.run actions = some hub) :
    hub.round = none ∨ ∃ before event during opening, actions = before ++ .handle event :: during ∧
      (∀ action ∈ during, action.event? = none) ∧ first.run before = some opening ∧
        opening.round = none ∧ (opening.handle event).run during = some hub := by
  refine run_induction (motive := fun actions hub => hub.round = none ∨
    ∃ before event during opening, actions = before ++ .handle event :: during ∧
      (∀ action ∈ during, action.event? = none) ∧ first.run before = some opening ∧
        opening.round = none ∧ (opening.handle event).run during = some hub) (.inl hrest) ?_ hrun
  intro actions hub action next hactions h hstep hmove
  cases haction : action.event? with
  | some event =>
    cases action with
    | handle other =>
      simp only [step] at hstep
      split at hstep
      · next hround =>
        cases hstep
        exact .inr ⟨actions, other, [], hub, rfl, List.forall_mem_nil _, hactions,
          Option.isNone_iff_eq_none.1 hround, rfl⟩
      · cases hstep
    | _ => cases haction
  | none =>
    rcases h with h | ⟨before, event, during, opening, rfl, hquiet, hbefore, hopening, hduring⟩
    · obtain ⟨hround, -⟩ := apart_of_aside hmove (hc.run hactions) (aside_of_rest h hstep haction)
      exact .inl (hround.trans h)
    · refine .inr ⟨before, event, during ++ [action], opening, ?_, ?_, hbefore, hopening, ?_⟩
      · rw [List.append_assoc, List.cons_append]
      · rw [List.forall_mem_append, List.forall_mem_singleton]
        exact ⟨hquiet, haction⟩
      · rw [run_concat, hduring]
        exact hstep

/-- A session is missed only if the message of the last event is offered to it. -/
theorem offers_of_misses (hc : first.Coherent) (hrest : first.round = none)
    {actions : List Action} (hrun : first.run actions = some hub) (hmisses : hub.misses id = true) :
    ∃ before event during opening round, actions = before ++ .handle event :: during ∧
      (∀ action ∈ during, action.event? = none) ∧ first.run before = some opening ∧
        hub.round = some round ∧ opening.Offers event id round.delivery := by
  obtain ⟨round, rest, -, -, hround, hpending, -⟩ := misses_iff.1 hmisses
  rcases exists_event hc hrest hrun with
    hnone | ⟨before, event, during, opening, hactions, hquiet, hbefore, hopening, hduring⟩
  · rw [hround] at hnone
    cases hnone
  · refine ⟨before, event, during, opening, round, hactions, hquiet, hbefore, hround, ?_⟩
    cases progress_of_run (hc.run hbefore) hopening event hquiet hduring with
    | settled hnone h =>
      rw [hround] at hnone
      cases hnone
    | underway hsame h =>
      rw [hround] at hsame
      cases hsame
      exact (h.ahead id (by rw [hpending]; exact List.mem_cons_self)).1

/-! ## What closes a session -/

/-- Apart from events, the last step of a round is the only one that closes sessions. -/
theorem closed_of_step (hstep : hub.step action = some next) (hc : hub.Coherent)
    {session : Registration} (hsession : hub.sessions.get? id = some session)
    (hclosed : next.sessions.get? id ≠ some session) :
    (∃ peer depth, action = .handle (.connect id peer depth)) ∨
      action = .handle (.disconnect id) ∨
        (action = .proceed ∧ ∃ round mailbox, hub.round = some round ∧ round.pending = [] ∧
          id ∈ round.failed ∧ hub.mailboxes[session.mailbox]? = some mailbox ∧
            mailbox.attended = false) := by
  have hround : ∀ {round : Round}, hub.round = some round → round.pending = [] →
      (round.failed.foldl Table.erase hub.sessions).get? id ≠ some session →
        ∃ round mailbox, hub.round = some round ∧ round.pending = [] ∧ id ∈ round.failed ∧
          hub.mailboxes[session.mailbox]? = some mailbox ∧ mailbox.attended = false := by
    intro round hround hpending hdropped
    rw [Table.get?_foldl_erase] at hdropped
    split at hdropped
    · next hmem =>
      obtain ⟨same, mailbox, hsame, hat, hgone⟩ := (hc.fits round hround).gone id hmem
      rw [hsession] at hsame
      cases hsame
      exact ⟨round, mailbox, hround, hpending, hmem, hat, hgone⟩
    · exact absurd hsession hdropped
  cases move_of_step hstep with
  | connect other peer depth log hrest =>
    by_cases hother : id = other
    · exact .inl ⟨peer, depth, by rw [hother]⟩
    · refine absurd ?_ hclosed
      rw [Table.get?_insert, if_neg hother]
      exact hsession
  | disconnect other log hrest =>
    by_cases hother : id = other
    · exact .inr (.inl (by rw [hother]))
    · refine absurd ?_ hclosed
      rw [Table.get?_erase, if_neg hother]
      exact hsession
  | passOn round raw log hsome hpending hdelivery =>
    exact .inr (.inr ⟨rfl, hround hsome hpending hclosed⟩)
  | settle round text log hsome hpending hdelivery =>
    exact .inr (.inr ⟨rfl, hround hsome hpending hclosed⟩)
  | _ => exact absurd hsession hclosed

/-! ## What an event does to the sessions -/

/-- Between events a hub that is not in a round closes nobody. -/
theorem rest_of_run (hc : hub.Coherent) (hrest : hub.round = none) {during : List Action}
    (hquiet : ∀ action ∈ during, action.event? = none) (hrun : hub.run during = some next) :
    next.round = none ∧ next.sessions = hub.sessions := by
  revert hquiet
  refine run_induction (motive := fun during next => (∀ action ∈ during, action.event? = none) →
    next.round = none ∧ next.sessions = hub.sessions) (fun _ => ⟨hrest, rfl⟩) ?_ hrun
  intro actions middle action next hactions h hstep hmove hquiet
  rw [List.forall_mem_append, List.forall_mem_singleton] at hquiet
  obtain ⟨hround, hsessions⟩ := h hquiet.1
  obtain ⟨hsame, hkept, -⟩ :=
    apart_of_aside hmove (hc.run hactions) (aside_of_rest hround hstep hquiet.2)
  exact ⟨hsame.trans hround, hkept.trans hsessions⟩

/-- What an event does to the sessions, where `last` is the hub when it is at rest again after
    other steps `during`. -/
structure Concluded (hub : Hub σ) (event : Event) (during : List Action) (last : Hub σ) :
    Prop where
  -- To whom the message of the event is offered gets it, or is missed and closed.
  settled : Settled hub event (fun id => (hub.handle event).turns id during) last
  -- Unless receivers leave meanwhile, an update closes the other sessions that have none.
  update : ∀ {sender raw id number mailbox}, event = .message sender raw →
    hub.accepted? event = some raw → hub.mailboxOf? id = some (number, mailbox) →
      (mailbox.attended = true → .leave number ∉ during) →
        (last.isOpen id = true ↔ id = sender ∨ mailbox.attended = true)
  -- The refusal of a name closes the session itself if it has none.
  refusal : ∀ {id raw name fault number mailbox}, event = .message id raw →
    Request.classify raw = .save name → SnapshotName.sanitize name = .error fault →
      hub.mailboxOf? id = some (number, mailbox) →
        (mailbox.attended = true → .leave number ∉ during) →
          (last.isOpen id = true ↔ mailbox.attended = true)
  -- All are closed at once.
  once : ∀ before middle, before <+: during → (hub.handle event).run before = some middle →
    middle.sessions =
      if middle.round.isSome then (hub.handle event).sessions else last.sessions

variable {during : List Action} {number : Nat} {mailbox : Mailbox}

/-- A session without a receiver is missed. -/
theorem missed_of_gone {record : SessionId → List Turn} {d : Delivery}
    (h : Settled hub event record last) (hrun : (hub.handle event).run during = some last)
    (hoffers : hub.Offers event id d) (hmailbox : hub.mailboxOf? id = some (number, mailbox))
    (hgone : mailbox.attended = false) : record id = [.missed] := by
  rcases h.recorded id with hnone | hmissed
  · -- Otherwise the message has come into a mailbox that cannot change any more.
    obtain ⟨held, old, found, hold, hfound, hoffered⟩ := h.served id d hoffers hnone
    rw [hmailbox] at hold
    cases hold
    have hat := (mailboxOf?_eq_some_iff.1 hmailbox).2
    rw [← hoffers.apart.2.2] at hat
    rw [frozen_of_run hrun hat hgone] at hfound
    cases hfound
    have hlength := congrArg List.length hoffered
    simp at hlength
  · exact hmissed

/-- A session whose receiver stays is not missed. -/
theorem open_of_attended (hc : hub.Coherent) (hrest : hub.round = none) {id : SessionId}
    (hsessions : (hub.handle event).sessions = hub.sessions)
    (hmailboxes : (hub.handle event).mailboxes = hub.mailboxes)
    (hquiet : ∀ action ∈ during, action.event? = none)
    (hrun : (hub.handle event).run during = some last)
    (hmailbox : hub.mailboxOf? id = some (number, mailbox)) (hattended : mailbox.attended = true)
    (hstays : .leave number ∉ during) : last.isOpen id = true := by
  obtain ⟨⟨⟨peer, held⟩, hsession, rfl⟩, hat⟩ := mailboxOf?_eq_some_iff.1 hmailbox
  have hstanding : (hub.handle event).Standing id peer held :=
    ⟨by rw [hsessions]; exact hsession, mailbox, by rw [hmailboxes]; exact hat, hattended⟩
  have hkept : ∀ action ∈ during, action.ends id held = false := by
    intro action hmem
    cases action with
    | handle other => cases hquiet _ hmem
    | leave other =>
      refine decide_eq_false ?_
      rintro rfl
      exact hstays hmem
    | _ => rfl
  obtain ⟨hlast, -⟩ :=
    hstanding.run (coherent_of_move (move_handle event hrest) hc) hrun hkept
  exact Hub.isOpen_iff.2 ⟨_, hlast.registered⟩

/-- A session to which the message is offered is closed just if it has no receiver. -/
theorem open_iff_of_offers (hc : hub.Coherent) (hrest : hub.round = none) {d : Delivery}
    {record : SessionId → List Turn} (h : Settled hub event record last)
    (hquiet : ∀ action ∈ during, action.event? = none)
    (hrun : (hub.handle event).run during = some last) (hoffers : hub.Offers event id d)
    (hmailbox : hub.mailboxOf? id = some (number, mailbox))
    (hstays : mailbox.attended = true → .leave number ∉ during) :
    last.isOpen id = true ↔ mailbox.attended = true := by
  obtain ⟨-, hsessions, hmailboxes⟩ := hoffers.apart
  cases hattended : mailbox.attended with
  | true =>
    have hopen := open_of_attended hc hrest hsessions hmailboxes hquiet hrun hmailbox hattended
      (hstays hattended)
    exact iff_of_true hopen rfl
  | false =>
    rw [h.isOpen_iff hsessions, missed_of_gone h hrun hoffers hmailbox hattended]
    simp

omit [Sink σ] in
/-- The sender of an update is not offered it, and so not missed. -/
theorem Settled.sender {record : SessionId → List Turn} {sender : SessionId} {raw : String}
    (h : Settled hub (.message sender raw) record last)
    (haccepted : hub.accepted? (.message sender raw) = some raw) : record sender = [] := by
  refine (h.recorded sender).resolve_right fun hmissed => ?_
  obtain ⟨⟨d, hoffers⟩, -⟩ := h.missed sender hmissed
  cases hoffers with
  | update _ _ hother => exact hother rfl
  | refusal _ hsave _ =>
    rw [accepted?_of_save _ hsave] at haccepted
    cases haccepted

/-- As long as the round lasts the sessions are those that it began with, and then those that
    it leaves. -/
theorem sessions_of_part (hc : hub.Coherent) (hrest : hub.round = none) {before after : List Action}
    {middle : Hub σ} (hquiet : ∀ action ∈ before ++ after, action.event? = none)
    (hbefore : (hub.handle event).run before = some middle)
    (hafter : middle.run after = some last) :
    middle.sessions =
      if middle.round.isSome then (hub.handle event).sessions else last.sessions := by
  rw [List.forall_mem_append] at hquiet
  cases progress_of_run hc hrest event hquiet.1 hbefore with
  | underway hround h =>
    rw [hround]
    exact h.sessions
  | settled hmiddle h =>
    have hbegun : (hub.handle event).Coherent := coherent_of_move (move_handle event hrest) hc
    rw [hmiddle]
    exact (rest_of_run (hbegun.run hbefore) hmiddle hquiet.2 hafter).2.symm

theorem concluded_of_run (hc : hub.Coherent) (hrest : hub.round = none)
    (hquiet : ∀ action ∈ during, action.event? = none)
    (hrun : (hub.handle event).run during = some last) (hlast : last.round = none) :
    Concluded hub event during last := by
  have hsettled : Settled hub event (fun id => (hub.handle event).turns id during) last := by
    cases progress_of_run hc hrest event hquiet hrun with
    | settled _ h => exact h
    | underway hround _ =>
      rw [hlast] at hround
      cases hround
  have hopen : ∀ {id number mailbox}, hub.mailboxOf? id = some (number, mailbox) →
      hub.isOpen id = true := by
    intro id number mailbox hmailbox
    obtain ⟨⟨session, hsession, -⟩, -⟩ := mailboxOf?_eq_some_iff.1 hmailbox
    exact isOpen_iff.2 ⟨session, hsession⟩
  refine ⟨hsettled, ?_, ?_, ?_⟩
  · rintro sender raw id number mailbox rfl haccepted hmailbox hstays
    by_cases hid : id = sender
    · subst hid
      rw [hsettled.isOpen_iff (hub.apart_of_message id raw).1]
      exact iff_of_true ⟨hopen hmailbox, hsettled.sender haccepted⟩ (.inl rfl)
    · rw [or_iff_right hid]
      exact open_iff_of_offers hc hrest hsettled hquiet hrun
        (.update haccepted (hopen hmailbox) hid) hmailbox hstays
  · rintro id raw name fault number mailbox rfl hraw hname hmailbox hstays
    exact open_iff_of_offers hc hrest hsettled hquiet hrun
      (.refusal (hopen hmailbox) hraw hname) hmailbox hstays
  · rintro before middle ⟨after, rfl⟩ hbefore
    rw [run_append, hbefore] at hrun
    exact sessions_of_part hc hrest hquiet hbefore hrun

/-! ## All together -/

/-- What there is to say about who is open after a run. -/
structure Roster (first : Hub σ) (actions : List Action) (hub : Hub σ) : Prop where
  -- Between events those are open who have connected, and have been neither disconnected nor
  -- missed since.
  current : hub.round = none →
    ∀ id, hub.isOpen id = true ↔ (first.turns id actions).getLast? = some .opened
  -- Who is missed has no receiver when the hub is at it with the message of the last event:
  -- the update of another open session, or the refusal of a name that it gave itself.
  offered : ∀ {id}, hub.misses id = true →
    ∃ before event during opening round, actions = before ++ .handle event :: during ∧
      (∀ action ∈ during, action.event? = none) ∧ first.run before = some opening ∧
        hub.round = some round ∧ opening.Offers event id round.delivery
  -- A step that closes a session is an event of its own, or the end of a round that has
  -- missed it.
  closed : ∀ {action next id session}, hub.step action = some next →
    hub.sessions.get? id = some session → next.sessions.get? id ≠ some session →
      (∃ peer depth, action = .handle (.connect id peer depth)) ∨
        action = .handle (.disconnect id) ∨
          (action = .proceed ∧ ∃ round mailbox, hub.round = some round ∧ round.pending = [] ∧
            id ∈ round.failed ∧ hub.mailboxes[session.mailbox]? = some mailbox ∧
              mailbox.attended = false)
  -- Whatever event comes next, its message gets to everyone that it is offered to, or closes
  -- the session.
  concluded : hub.round = none → ∀ {event during last},
    (∀ action ∈ during, action.event? = none) →
      hub.run (.handle event :: during) = some last → last.round = none →
        Concluded hub event during last
  -- The hub is at rest again at some time, if receivers take what is in its way.
  ends : ∃ more last, hub.run more = some last ∧ (∀ action ∈ more, action.ofRound = true) ∧
    last.round = none

/-- Who is open in every run. -/
theorem roster_of_run {store : Store} {archive : Archive} {sinks : List σ}
    {actions : List Action} (hrun : (start store archive sinks).run actions = some hub) :
    Roster (start store archive sinks) actions hub where
  current hrest id := by
    rw [← remains_of_rest hrest]
    exact remains_of_run hrun id
  offered hmisses := offers_of_misses (coherent_start store archive sinks) rfl hrun hmisses
  closed hstep hsession hclosed := closed_of_step hstep (coherent_of_run hrun) hsession hclosed
  concluded hrest event during last hquiet hevent hlast := by
    rw [run_cons] at hevent
    obtain ⟨begun, hbegun, hduring⟩ := Option.bind_eq_some_iff.1 hevent
    have hstep : hub.step (.handle event) = some (hub.handle event) := by
      simp only [step, hrest, Option.isNone_none, if_true]
    rw [hstep] at hbegun
    cases hbegun
    exact concluded_of_run (coherent_of_run hrun) hrest hquiet hduring hlast
  ends := exists_rest (coherent_of_run hrun)

/-- Four sessions, of which only the second has a receiver. The update of the first closes the
    third and the fourth, and not the first itself. -/
theorem roster_of_quartet :
    ∃ hub last : Hub Recorder,
      (start Store.blank (.ofDisk "presets" { place := .absent } 1) []).run
        [.handle (.connect ⟨1⟩ "desk" 4), .handle (.connect ⟨2⟩ "pad" 4),
          .handle (.connect ⟨3⟩ "wing" 4), .handle (.connect ⟨4⟩ "rack" 4),
          .leave 0, .leave 2, .leave 3] = some hub ∧
      hub.run [.handle (.message ⟨1⟩ "x:1"), .proceed, .proceed, .proceed, .proceed] =
        some last ∧
      last.round = none ∧ last.isOpen ⟨1⟩ = true ∧ last.isOpen ⟨2⟩ = true ∧
      last.isOpen ⟨3⟩ = false ∧ last.isOpen ⟨4⟩ = false := by
  have hroster := @roster_of_run Recorder _ _ Store.blank
    (.ofDisk "presets" { place := .absent } 1) []
    [.handle (.connect ⟨1⟩ "desk" 4), .handle (.connect ⟨2⟩ "pad" 4),
      .handle (.connect ⟨3⟩ "wing" 4), .handle (.connect ⟨4⟩ "rack" 4),
      .leave 0, .leave 2, .leave 3] rfl
  have hconcluded := @Roster.concluded _ _ _ _ _ hroster rfl (.message ⟨1⟩ "x:1")
    [.proceed, .proceed, .proceed, .proceed] _ (by decide) rfl rfl
  have hopen := @Concluded.update _ _ _ _ _ _ hconcluded ⟨1⟩ "x:1"
  refine ⟨_, _, rfl, rfl, rfl, ?_, ?_, ?_, ?_⟩
  · exact (hopen rfl rfl rfl nofun).2 (.inl rfl)
  · exact (hopen rfl rfl rfl (by decide)).2 (.inr rfl)
  · exact Bool.eq_false_iff.2 fun h => absurd ((hopen rfl rfl rfl nofun).1 h) (by decide)
  · exact Bool.eq_false_iff.2 fun h => absurd ((hopen rfl rfl rfl nofun).1 h) (by decide)

end

end ShowRelay.Hub
