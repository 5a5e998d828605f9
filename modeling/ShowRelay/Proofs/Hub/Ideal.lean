/-
  ShowRelay.Proofs.Hub.Ideal

  What the depth of queues amounts to. An ideal hub has queues without bound:
  it handles an event in one step, in which every session gets what it is to
  get (`Ideal.handle`). Queues that are full make a hub wait in the middle of a
  round, for as long as receivers please, and in this it differs from the ideal
  hub; but only in this.

  `Hub.ideal` is the ideal hub that a hub stands for. It has done what the round
  at hand still has to do: its inboxes hold what is still to be offered, and its
  destinations were given the update in hand. So to take up an event is the one
  step that changes it, and every other step of the hub and of the receivers
  leaves it as it is (`Hub.ideal_of_move`). The hub itself forgets sessions whose
  receiver is gone, and the ideal hub does not know of receivers; therefore
  receivers have to stay as long as their sessions are open.
-/

import ShowRelay.Proofs.Hub.Broadcast
import ShowRelay.Proofs.Hub.Merging
import ShowRelay.Proofs.Hub.Saving

namespace ShowRelay

/-! ## The ideal hub -/

/-- A hub whose sessions have inboxes that are never full. -/
@[ext] structure Ideal (σ : Type) where
  store : Store
  sessions : Table SessionId Hub.Registration
  -- What the hub has given to each registration there ever was, by number.
  inboxes : List (List Delivery)
  sinks : List σ

namespace Ideal

open Hub

variable {σ : Type}

/-- An ideal hub that no session has connected to yet. -/
def start (store : Store) (sinks : List σ) : Ideal σ where
  store
  sessions := Table.empty
  inboxes := []
  sinks

/-- The hub after some of its sessions have got a message. -/
def give (delivery : Delivery) (ids : List SessionId) (ideal : Ideal σ) : Ideal σ :=
  { ideal with
    inboxes := ideal.inboxes.mapIdx fun number inbox =>
      if ids.any (holds ideal.sessions number) then inbox ++ [delivery] else inbox }

/-- The hub after a message of one of its sessions, if that is open. -/
def message [Sink σ] (ideal : Ideal σ) (id : SessionId) (raw : String) : Ideal σ :=
  match ideal.sessions.get? id, Request.classify raw with
  | none, _ => ideal
  | some _, .update raw =>
    let ideal := ideal.give (.broadcast raw) (ideal.sessions.keys.filter (· ≠ id))
    { ideal with
      store := ideal.store.merge (Delta.decode raw)
      sinks := ideal.sinks.map (Sink.given raw) }
  | some _, .save name =>
    match SnapshotName.sanitize name with
    | .error _ => ideal.give (.answer Request.saveFailedTag) [id]
    | .ok _ => ideal

/-- The hub after an event. The depth of a queue makes no difference to it. -/
def handle [Sink σ] (ideal : Ideal σ) : Event → Ideal σ
  | .connect id peer _ =>
    { ideal with
      sessions := ideal.sessions.insert id ⟨peer, ideal.inboxes.length⟩
      inboxes := ideal.inboxes ++ [[]] }
  | .message id raw => ideal.message id raw
  | .disconnect id => { ideal with sessions := ideal.sessions.erase id }

/-- The hub after some events, one after the other. -/
def handleAll [Sink σ] (ideal : Ideal σ) (events : List Event) : Ideal σ :=
  events.foldl handle ideal

end Ideal

namespace Hub

variable {σ : Type}

/-- The event that a step takes up. -/
def Action.event? : Action → Option Event
  | .handle event => some event
  | _ => none

/-- The open sessions that a step leaves without a receiver. -/
def abandonedIn (hub : Hub σ) : Action → List SessionId
  | .leave number => hub.sessions.keys.filter (holds hub.sessions number)
  | _ => []

/-- Every open session has a receiver. -/
def Attended (hub : Hub σ) : Prop :=
  ∀ id session mailbox, hub.sessions.get? id = some session →
    hub.mailboxes[session.mailbox]? = some mailbox → mailbox.attended = true

/-- The ideal hub that a hub stands for. -/
def ideal [Sink σ] (hub : Hub σ) : Ideal σ where
  store := hub.store
  sessions := hub.sessions
  inboxes := hub.mailboxes.mapIdx fun number mailbox => mailbox.offered ++ hub.dueAt number
  sinks := hub.sinks.map (Sink.givenAll hub.updateInHand)

variable {hub next : Hub σ} {action : Action}

/-! ## Receivers that stay -/

/-- A change to a mailbox is nothing to the sessions unless its receiver leaves. -/
theorem Attended.set (h : hub.Attended) {number : Nat} {changed : Mailbox}
    (hchanged : changed.attended = true) (hsessions : next.sessions = hub.sessions)
    (hmailboxes : next.mailboxes = hub.mailboxes.set number changed) : next.Attended := by
  intro id session mailbox hsession hat
  rw [hsessions] at hsession
  rw [hmailboxes, List.getElem?_set] at hat
  split at hat
  · split at hat
    · cases hat
      exact hchanged
    · cases hat
  · exact h id session mailbox hsession hat

/-- Sessions may be closed at any time. -/
theorem Attended.mono (h : hub.Attended)
    (hsessions : ∀ id session, next.sessions.get? id = some session →
      hub.sessions.get? id = some session)
    (hmailboxes : next.mailboxes = hub.mailboxes) : next.Attended := by
  intro id session mailbox hsession hat
  rw [hmailboxes] at hat
  exact h id session mailbox (hsessions id session hsession) hat

theorem get?_of_foldl_erase {sessions : Table SessionId Registration} {ids : List SessionId}
    (id : SessionId) (session : Registration)
    (h : (ids.foldl Table.erase sessions).get? id = some session) :
    sessions.get? id = some session := by
  rw [Table.get?_foldl_erase] at h
  split at h
  · cases h
  · exact h

/-- A round of a hub whose sessions have receivers remembers none of them. -/
theorem Attended.failed (h : hub.Attended) (hc : hub.Coherent) {round : Round}
    (hround : hub.round = some round) : round.failed = [] := by
  apply List.eq_nil_iff_forall_not_mem.2
  intro id hmem
  obtain ⟨session, mailbox, hsession, hat, hgone⟩ := (hc.fits round hround).gone id hmem
  have hattended := h id session mailbox hsession hat
  rw [hgone] at hattended
  cases hattended

variable [Sink σ]

/-- Sessions keep their receivers if none is abandoned. -/
theorem attended_of_move (hmove : Move hub action next) (hc : hub.Coherent)
    (hstay : hub.abandonedIn action = []) (h : hub.Attended) : next.Attended := by
  cases hmove with
  | connect id peer depth log hround =>
    intro other session mailbox hsession hat
    rw [Table.get?_insert] at hsession
    split at hsession
    · -- The new session has the mailbox that was added.
      cases hsession
      rw [List.getElem?_append_right (Nat.le_refl _), Nat.sub_self] at hat
      cases hat
      rfl
    · have hlt := hc.registers.numbered hsession
      rw [List.getElem?_append_left hlt] at hat
      exact h other session mailbox hsession hat
  | disconnect id log hround =>
    refine h.mono (fun other session hsession => ?_) rfl
    rw [Table.get?_erase] at hsession
    split at hsession
    · cases hsession
    · exact hsession
  | passOn round raw log hround hpending hdelivery => exact h.mono get?_of_foldl_erase rfl
  | settle round text log hround hpending hdelivery => exact h.mono get?_of_foldl_erase rfl
  | deliver _ round id rest number mailbox changed haction hround hpending hmailbox haccepts =>
    exact h.set haccepts.attended_after rfl rfl
  | reply _ outcome mailbox changed haction houtcome hat haccepts =>
    exact h.set haccepts.attended_after rfl rfl
  | take number mailbox changed hat htake =>
    have hattended : changed.attended = true := by
      rw [Mailbox.attended_take? htake]
      exact Mailbox.attended_of_take? htake
    exact h.set hattended rfl rfl
  | leave number mailbox hat hattended =>
    intro id session found hsession hfound
    -- The mailbox left is the one of no open session.
    have hother : number ≠ session.mailbox := by
      intro hsame
      have hheld : id ∈ hub.sessions.keys.filter (holds hub.sessions number) :=
        List.mem_filter.2 ⟨Table.mem_keys_iff.2 ⟨session, hsession⟩,
          holds_iff.2 ⟨session, hsession, hsame.symm⟩⟩
      rw [show hub.sessions.keys.filter (holds hub.sessions number) = [] from hstay] at hheld
      cases hheld
    rw [List.getElem?_set_ne hother] at hfound
    exact h id session found hsession hfound
  | _ => exact h

/-! ## What steps are to the ideal hub -/

/-- What the ideal hub has in an inbox is what has come into the mailbox and is still due. -/
theorem getElem?_inboxes (hub : Hub σ) (number : Nat) :
    hub.ideal.inboxes[number]? =
      hub.mailboxes[number]?.map fun mailbox => mailbox.offered ++ hub.dueAt number :=
  List.getElem?_mapIdx

theorem inboxes_of_rest (h : hub.round = none) :
    hub.ideal.inboxes = hub.mailboxes.map Mailbox.offered := by
  apply List.ext_getElem?
  intro number
  rw [getElem?_inboxes, dueAt_of_rest h, List.getElem?_map]
  simp only [List.append_nil]

theorem sinks_of_rest (h : hub.round = none) : hub.ideal.sinks = hub.sinks := by
  show hub.sinks.map (Sink.givenAll hub.updateInHand) = hub.sinks
  rw [updateInHand_of_rest h]
  exact List.map_id hub.sinks

theorem inboxes_keep (hmailboxes : next.mailboxes = hub.mailboxes)
    (hdue : ∀ number, next.dueAt number = hub.dueAt number) :
    next.ideal.inboxes = hub.ideal.inboxes := by
  apply List.ext_getElem?
  intro number
  rw [getElem?_inboxes, getElem?_inboxes, hmailboxes, hdue]

/-- A mailbox was changed; what it was due it has got. -/
theorem inboxes_set {number : Nat} {found changed : Mailbox}
    (hfound : hub.mailboxes[number]? = some found)
    (hmailboxes : next.mailboxes = hub.mailboxes.set number changed)
    (hself : changed.offered ++ next.dueAt number = found.offered ++ hub.dueAt number)
    (hothers : ∀ other, number ≠ other → next.dueAt other = hub.dueAt other) :
    next.ideal.inboxes = hub.ideal.inboxes := by
  apply List.ext_getElem?
  intro other
  rw [getElem?_inboxes, getElem?_inboxes, hmailboxes]
  by_cases hother : number = other
  · subst hother
    have hlt := (List.getElem?_eq_some_iff.1 hfound).1
    rw [List.getElem?_set_self hlt, hfound, Option.map_some, Option.map_some, hself]
  · rw [List.getElem?_set_ne hother, hothers other hother]

/-- A round begins: for the ideal hub it is over. -/
theorem inboxes_begin (round : Round) (hrest : hub.round = none)
    (hsessions : next.sessions = hub.sessions) (hmailboxes : next.mailboxes = hub.mailboxes)
    (hround : next.round = some round) :
    next.ideal.inboxes = (hub.ideal.give round.delivery round.pending).inboxes := by
  apply List.ext_getElem?
  intro number
  have hgive : (hub.ideal.give round.delivery round.pending).inboxes[number]? =
      hub.ideal.inboxes[number]?.map fun inbox =>
        if round.pending.any (holds hub.sessions number) then inbox ++ [round.delivery]
        else inbox := List.getElem?_mapIdx
  rw [hgive, getElem?_inboxes, getElem?_inboxes, hmailboxes, dueAt_of_rest hrest,
    dueAt_of_round hround, hsessions, Round.dueAt, Option.map_map]
  congr 1
  funext mailbox
  simp only [Function.comp_apply, List.append_nil]
  split
  · rfl
  · exact List.append_nil mailbox.offered

/-- A message that gets into the mailbox of the session at hand was due to it, and to no other
    mailbox. -/
theorem inboxes_deliver {round : Round} {id : SessionId} {rest : List SessionId} {number : Nat}
    {mailbox changed : Mailbox} (hc : hub.Coherent) (hround : hub.round = some round)
    (hpending : round.pending = id :: rest)
    (hmailbox : hub.mailboxOf? id = some (number, mailbox))
    (haccepts : mailbox.Accepts round.delivery changed) (hsessions : next.sessions = hub.sessions)
    (hmailboxes : next.mailboxes = hub.mailboxes.set number changed)
    (hnext : next.round = some round.next) : next.ideal.inboxes = hub.ideal.inboxes := by
  obtain ⟨⟨session, hsession, rfl⟩, hat⟩ := mailboxOf?_eq_some_iff.1 hmailbox
  have hfits := hc.fits round hround
  refine inboxes_set hat hmailboxes ?_ ?_
  · have hdue : hub.dueAt session.mailbox = [round.delivery] := by
      rw [dueAt_of_round hround, Round.dueAt_of_head hpending hsession]
    have hdone : next.dueAt session.mailbox = [] := by
      rw [dueAt_of_round hnext, hsessions, hfits.dueAt_next_of_head hc.registers hpending hsession]
    rw [hdue, hdone, hc.offered_of_deliver hround hat haccepts, List.append_nil]
  · intro other hother
    have hnot : holds hub.sessions other id = false := by
      rw [holds_of_registered hsession, decide_eq_false_iff_not]
      exact hother
    rw [dueAt_of_round hround, dueAt_of_round hnext, hsessions, Round.dueAt_next hpending hnot]

/-- Taking up an event is to the ideal hub to handle it, and every other step is nothing. -/
theorem ideal_of_move (hmove : Move hub action next) (hc : hub.Coherent) (h : hub.Attended) :
    next.ideal = hub.ideal.handleAll action.event?.toList := by
  cases hmove with
  | connect id peer depth log hround =>
    show _ = hub.ideal.handle (.connect id peer depth)
    have hcount : hub.ideal.inboxes.length = hub.mailboxes.length := List.length_mapIdx
    refine Ideal.ext rfl ?_ ?_ rfl
    · simp only [Ideal.handle, hcount]
      rfl
    · simp only [Ideal.handle]
      rw [inboxes_of_rest hround]
      refine Eq.trans (inboxes_of_rest ?_) ?_
      · exact hround
      · exact List.map_append
  | ignore id raw log hround hclosed =>
    show _ = hub.ideal.message id raw
    have hnone : hub.ideal.sessions.get? id = none := hclosed
    simp only [Ideal.message, hnone]
    rfl
  | update id raw session log hround hopen hraw =>
    show _ = hub.ideal.message id raw
    have hsome : hub.ideal.sessions.get? id = some session := hopen
    simp only [Ideal.message, hsome, hraw]
    refine Ideal.ext rfl rfl ?_ ?_
    · exact inboxes_begin ⟨.broadcast raw, hub.sessions.keys.filter (· ≠ id), false, []⟩ hround
        rfl rfl rfl
    · show hub.sinks.map (Sink.givenAll [raw]) = hub.ideal.sinks.map (Sink.given raw)
      rw [sinks_of_rest hround]
      rfl
  | refuse id raw name session fault log hround hopen hraw hname =>
    show _ = hub.ideal.message id raw
    have hsome : hub.ideal.sessions.get? id = some session := hopen
    simp only [Ideal.message, hsome, hraw, hname]
    refine Ideal.ext rfl rfl ?_ ?_
    · exact inboxes_begin ⟨.answer Request.saveFailedTag, [id], false, []⟩ hround rfl rfl rfl
    · show hub.sinks.map (Sink.givenAll []) = hub.ideal.sinks
      rw [sinks_of_rest hround]
      exact List.map_id hub.sinks
  | request id raw name session clean log hround hopen hraw hname =>
    show _ = hub.ideal.message id raw
    have hsome : hub.ideal.sessions.get? id = some session := hopen
    simp only [Ideal.message, hsome, hraw, hname]
    rfl
  | disconnect id log hround =>
    show _ = hub.ideal.handle (.disconnect id)
    refine Ideal.ext rfl rfl (inboxes_keep rfl fun number => ?_) rfl
    simp only [dueAt, hround, Option.elim_none]
  | passOn round raw log hround hpending hdelivery =>
    refine Ideal.ext rfl ?_ (inboxes_keep rfl fun number => ?_) ?_
    · show round.failed.foldl Table.erase hub.sessions = hub.sessions
      rw [h.failed hc hround]
      rfl
    · rw [dueAt_of_round hround, Round.dueAt_of_done hpending]
      rfl
    · have hhand : hub.updateInHand = [raw] := by
        rw [updateInHand_of_round hround, hdelivery]
        rfl
      show (hub.sinks.map (Sink.given raw)).map (Sink.givenAll []) =
        hub.sinks.map (Sink.givenAll hub.updateInHand)
      rw [hhand, List.map_map]
      rfl
  | settle round text log hround hpending hdelivery =>
    refine Ideal.ext rfl ?_ (inboxes_keep rfl fun number => ?_) ?_
    · show round.failed.foldl Table.erase hub.sessions = hub.sessions
      rw [h.failed hc hround]
      rfl
    · rw [dueAt_of_round hround, Round.dueAt_of_done hpending]
      rfl
    · have hhand : hub.updateInHand = [] := by
        rw [updateInHand_of_round hround, hdelivery]
        rfl
      show hub.sinks.map (Sink.givenAll []) = hub.sinks.map (Sink.givenAll hub.updateInHand)
      rw [hhand]
  | pass round id rest hround hpending hmailbox =>
    -- This never happens.
    obtain ⟨number, mailbox, hsome⟩ := hc.exists_mailbox hround hpending
    rw [hmailbox] at hsome
    cases hsome
  | miss round id rest number mailbox hround hpending hmailbox hgone =>
    -- Who is visited has a receiver.
    obtain ⟨⟨session, hsession, rfl⟩, hat⟩ := mailboxOf?_eq_some_iff.1 hmailbox
    have hattended := h id session mailbox hsession hat
    rw [hgone] at hattended
    cases hattended
  | deliver _ round id rest number mailbox changed haction hround hpending hmailbox haccepts =>
    have hevent : action.event? = none := by
      rcases haction with rfl | rfl
      · rfl
      · rfl
    rw [hevent]
    refine Ideal.ext rfl rfl ?_ ?_
    · exact inboxes_deliver hc hround hpending hmailbox haccepts rfl rfl rfl
    · show hub.sinks.map (Sink.givenAll round.next.delivery.raw?.toList) =
        hub.sinks.map (Sink.givenAll hub.updateInHand)
      rw [updateInHand_of_round hround]
      rfl
  | wait round log hround hpending =>
    refine Ideal.ext rfl rfl (inboxes_keep rfl fun number => ?_) ?_
    · rw [dueAt_of_round hround]
      rfl
    · show hub.sinks.map (Sink.givenAll round.delivery.raw?.toList) =
        hub.sinks.map (Sink.givenAll hub.updateInHand)
      rw [updateInHand_of_round hround]
  | write replies job jobs houtcome hjobs => rfl
  | drop outcome houtcome hmailbox => rfl
  | reply _ outcome mailbox changed haction houtcome hat haccepts =>
    have hevent : action.event? = none := by
      rcases haction with rfl | rfl
      · rfl
      · rfl
    rw [hevent]
    refine Ideal.ext rfl rfl (inboxes_set hat rfl ?_ fun _ _ => rfl) rfl
    rw [hc.offered_of_reply houtcome hat haccepts]
    rfl
  | take number mailbox changed hat htake =>
    refine Ideal.ext rfl rfl (inboxes_set hat rfl ?_ fun _ _ => rfl) rfl
    have hsame : changed.offered = mailbox.offered := by
      rw [Mailbox.offered, Mailbox.contents_take? htake, Mailbox.offered]
    rw [hsame]
    rfl
  | leave number mailbox hat hattended =>
    exact Ideal.ext rfl rfl (inboxes_set hat rfl rfl fun _ _ => rfl) rfl

/-! ## Runs -/

/-- A hub none of whose sessions is abandoned stands at any time, also in the middle of a
    round, for the ideal hub that has handled the events taken up. -/
theorem Attended.run (h : hub.Attended) (hc : hub.Coherent) {actions : List Action}
    (hrun : hub.run actions = some next) (hstay : hub.history abandonedIn actions = []) :
    next.Attended ∧ next.ideal = hub.ideal.handleAll (actions.filterMap Action.event?) := by
  refine run_induction (motive := fun actions next =>
    hub.history abandonedIn actions = [] →
      next.Attended ∧ next.ideal = hub.ideal.handleAll (actions.filterMap Action.event?))
    (fun _ => ⟨h, rfl⟩) ?_ hrun hstay
  intro actions middle action next hactions ih _ hmove hstay
  rw [history_concat abandonedIn action hactions, List.append_eq_nil_iff] at hstay
  obtain ⟨hattended, hideal⟩ := ih hstay.1
  have hmiddle := hc.run hactions
  refine ⟨attended_of_move hmove hmiddle hstay.2 hattended, ?_⟩
  rw [ideal_of_move hmove hmiddle hattended, hideal, Ideal.handleAll, Ideal.handleAll,
    Ideal.handleAll, List.filterMap_append, List.foldl_append]
  rfl

theorem ideal_of_run {store : Store} {archive : Archive} {sinks : List σ} {actions : List Action}
    (hrun : (start store archive sinks).run actions = some hub)
    (hstay : (start store archive sinks).history abandonedIn actions = []) :
    hub.Attended ∧
      hub.ideal = (Ideal.start store sinks).handleAll (actions.filterMap Action.event?) := by
  have hnobody : (start store archive sinks).Attended := fun _ _ _ hnone => by cases hnone
  have hstart : (start store archive sinks).ideal = Ideal.start store sinks :=
    Ideal.ext rfl rfl rfl (List.map_id sinks)
  rw [← hstart]
  exact hnobody.run (coherent_start store archive sinks) hrun hstay

/-! ## Rounds come to an end -/

/-- Whether a step is one that a round needs: of the hub, or of a receiver that takes a
    message. -/
def Action.ofRound : Action → Bool
  | .proceed | .take _ | .meet _ => true
  | _ => false

section

variable {round : Round} {id : SessionId} {rest : List SessionId} {number : Nat}
  {mailbox : Mailbox}

/-- Where there is room the hub puts the message down. -/
theorem exists_put (hround : hub.round = some round) (hpending : round.pending = id :: rest)
    (hmailbox : hub.mailboxOf? id = some (number, mailbox)) (hattended : mailbox.attended = true)
    (hroom : mailbox.hasRoom = true) :
    ∃ last, hub.step .proceed = some last ∧ last.round = some round.next := by
  simp only [step, proceed, hround, Option.bind_eq_bind, Option.bind_some, hpending, hmailbox,
    hattended, Bool.not_true, Bool.false_eq_true, if_false, hroom, if_true]
  exact ⟨_, rfl, rfl⟩

/-- A receiver for whom nothing can wait takes the message from the hub. -/
theorem exists_meet (hround : hub.round = some round) (hpending : round.pending = id :: rest)
    (hmailbox : hub.mailboxOf? id = some (number, mailbox)) (hmeets : mailbox.meets = true) :
    ∃ last, hub.step (.meet number) = some last ∧ last.round = some round.next := by
  simp only [step, meet, hround, Option.bind_eq_bind, Option.bind_some, hpending,
    List.head?_cons, hmailbox, hmeets, and_self, if_true]
  exact ⟨_, rfl, rfl⟩

/-- A session whose receiver is gone is passed by. -/
theorem exists_miss (hround : hub.round = some round) (hpending : round.pending = id :: rest)
    (hmailbox : hub.mailboxOf? id = some (number, mailbox)) (hgone : mailbox.attended = false) :
    ∃ last visited, hub.step .proceed = some last ∧ last.round = some visited ∧
      visited.pending = rest := by
  simp only [step, proceed, hround, Option.bind_eq_bind, Option.bind_some, hpending, hmailbox,
    hgone, Bool.not_false, if_true]
  exact ⟨_, _, rfl, rfl, by rw [Round.next, hpending, List.tail_cons]⟩

/-- The hub can get past the session at hand, if its receiver takes what is in the way. -/
theorem exists_next (hc : hub.Coherent) (hround : hub.round = some round)
    (hpending : round.pending = id :: rest) :
    ∃ more last visited, hub.run more = some last ∧
      (∀ action ∈ more, action.ofRound = true) ∧ last.round = some visited ∧
        visited.pending = rest := by
  have hnextPending : round.next.pending = rest := by rw [Round.next, hpending, List.tail_cons]
  obtain ⟨held, mailbox, hmailbox⟩ := hc.exists_mailbox hround hpending
  obtain ⟨hregistered, hat⟩ := mailboxOf?_eq_some_iff.1 hmailbox
  cases hattended : mailbox.attended with
  | false =>
    obtain ⟨last, visited, hstep, hvisited, hrest⟩ :=
      exists_miss hround hpending hmailbox hattended
    refine ⟨[.proceed], last, visited, ?_, by decide, hvisited, hrest⟩
    rw [run_singleton, hstep]
  | true =>
    by_cases hroom : mailbox.hasRoom = true
    · obtain ⟨last, hstep, hnext⟩ := exists_put hround hpending hmailbox hattended hroom
      refine ⟨[.proceed], last, round.next, ?_, by decide, hnext, hnextPending⟩
      rw [run_singleton, hstep]
    · by_cases hwaiting : mailbox.queued = []
      · have hmeets : mailbox.meets = true := by
          simp only [Mailbox.hasRoom, hwaiting, List.length_nil, decide_eq_true_eq] at hroom
          simp only [Mailbox.meets, hattended, Bool.true_and, decide_eq_true_eq]
          omega
        obtain ⟨last, hstep, hnext⟩ := exists_meet hround hpending hmailbox hmeets
        refine ⟨[.meet held], last, round.next, ?_, ?_, hnext, hnextPending⟩
        · rw [run_singleton, hstep]
        · intro action hmem
          rw [List.mem_singleton.1 hmem]
          rfl
      · obtain ⟨middle, changed, htake, hchanged, hfree, -, -⟩ :=
          exists_take hat (hc.bounded_at hat) hattended hwaiting
        -- To take a message leaves the round, the sessions and the receiver as they are.
        obtain ⟨hsame, hsessions, hthere⟩ : middle.round = hub.round ∧
            middle.sessions = hub.sessions ∧ changed.attended = true := by
          cases move_of_step htake with
          | take _ found taken hfound htaken =>
            have hlt := (List.getElem?_eq_some_iff.1 hfound).1
            rw [List.getElem?_set_self hlt] at hchanged
            cases hchanged
            refine ⟨rfl, rfl, ?_⟩
            rw [Mailbox.attended_take? htaken, Mailbox.attended_of_take? htaken]
          | deliver _ _ _ _ _ _ _ haction =>
            rcases haction with h | h
            · cases h
            · cases h
          | reply _ _ _ _ haction =>
            rcases haction with h | h
            · cases h
            · cases h
        have hheld : middle.mailboxOf? id = some (held, changed) := by
          rw [mailboxOf?_eq_some_iff, hsessions]
          exact ⟨hregistered, hchanged⟩
        obtain ⟨last, hstep, hnext⟩ :=
          exists_put (hsame.trans hround) hpending hheld hthere hfree
        refine ⟨[.take held, .proceed], last, round.next, ?_, ?_, hnext, hnextPending⟩
        · rw [run_cons, htake, Option.bind_some, run_singleton, hstep]
        · intro action hmem
          rcases List.mem_cons.1 hmem with rfl | hmem
          · rfl
          · rw [List.mem_singleton.1 hmem]
            rfl

omit [Sink σ] in
theorem abandonedIn_of_ofRound {action : Action} (h : action.ofRound = true) (hub : Hub σ) :
    hub.abandonedIn action = [] := by
  cases action with
  | leave number => cases h
  | _ => rfl

/-- When every session was visited the round is over. -/
theorem exists_conclude (hround : hub.round = some round) (hpending : round.pending = []) :
    ∃ last, hub.step .proceed = some last ∧ last.round = none := by
  simp only [step, proceed, hround, Option.bind_eq_bind, Option.bind_some, hpending]
  refine ⟨_, rfl, ?_⟩
  obtain ⟨log, hlog⟩ := foldl_evict round.failed { hub with round := none }
  unfold conclude
  rw [hlog]
  split
  · rfl
  · rfl

/-- A round comes to its end, if receivers take what is in its way. -/
theorem exists_rest (hc : hub.Coherent) :
    ∃ more last, hub.run more = some last ∧ (∀ action ∈ more, action.ofRound = true) ∧
      last.round = none := by
  cases hround : hub.round with
  | none => exact ⟨[], hub, rfl, by simp, hround⟩
  | some round =>
    -- By induction on the sessions still to be visited, for a hub that has visited the others.
    induction hpending : round.pending generalizing hub round with
    | nil =>
      obtain ⟨last, hstep, hrest⟩ := exists_conclude hround hpending
      refine ⟨[.proceed], last, ?_, by decide, hrest⟩
      rw [run_singleton, hstep]
    | cons id rest ih =>
      obtain ⟨first, middle, visited, hfirst, hofRound, hvisited, htail⟩ :=
        exists_next hc hround hpending
      obtain ⟨more, last, hmore, hall, hrest⟩ := ih (hc.run hfirst) visited hvisited htail
      refine ⟨first ++ more, last, ?_, ?_, hrest⟩
      · rw [run_append, hfirst, Option.bind_some, hmore]
      · intro action hmem
        rcases List.mem_append.1 hmem with hmem | hmem
        · exact hofRound action hmem
        · exact hall action hmem

end

/-! ## The result -/

/-- A hub is what an ideal hub is, as far as anyone can tell from outside. -/
structure Matches (hub : Hub σ) (ideal : Ideal σ) : Prop where
  sessions : hub.sessions = ideal.sessions
  store : hub.store = ideal.store
  sinks : hub.sinks = ideal.sinks
  -- What each session was given is what its receiver has taken and what still waits.
  offered : hub.mailboxes.map Mailbox.offered = ideal.inboxes
  broadcasts : hub.mailboxes.map Mailbox.broadcasts =
    ideal.inboxes.map fun inbox => inbox.filterMap Delivery.raw?

theorem matches_ideal (h : hub.round = none) : hub.Matches hub.ideal where
  sessions := rfl
  store := rfl
  sinks := (sinks_of_rest h).symm
  offered := (inboxes_of_rest h).symm
  broadcasts := by
    rw [inboxes_of_rest h, List.map_map]
    exact List.map_congr_left fun mailbox _ => mailbox.broadcasts_eq_offered

/-- The steps of a hub, whose queues have any depths, and of its receivers, in any order in
    which no receiver leaves while its session is open. Whenever the hub has come to the end of
    an event it is what the ideal hub is after the events taken up. No step but an event ever
    changes which sessions are open. And wherever the hub waits, it can come to the end of its
    event if receivers take what is in its way. -/
theorem matches_of_run {store : Store} {archive : Archive} {sinks : List σ}
    {actions : List Action} (hrun : (start store archive sinks).run actions = some hub)
    (hstay : (start store archive sinks).history abandonedIn actions = []) :
    (hub.round = none →
      hub.Matches ((Ideal.start store sinks).handleAll (actions.filterMap Action.event?))) ∧
    (∀ action next, hub.step action = some next → action.event? = none →
      next.sessions = hub.sessions) ∧
    ∃ more last, hub.run more = some last ∧ (∀ action ∈ more, action.ofRound = true) ∧
      last.round = none ∧
      last.Matches ((Ideal.start store sinks).handleAll (actions.filterMap Action.event?)) := by
  have hc := coherent_of_run hrun
  obtain ⟨hattended, hideal⟩ := ideal_of_run hrun hstay
  refine ⟨?_, ?_, ?_⟩
  · intro hrest
    rw [← hideal]
    exact matches_ideal hrest
  · intro action next hstep hnone
    have hsame := ideal_of_move (move_of_step hstep) hc hattended
    rw [hnone] at hsame
    exact congrArg Ideal.sessions hsame
  · obtain ⟨more, last, hmore, hofRound, hrest⟩ := exists_rest hc
    have hnobody : hub.history abandonedIn more = [] :=
      history_eq_nil hub fun action hmem hub => abandonedIn_of_ofRound (hofRound action hmem) hub
    -- A round takes up no event.
    have hnone : more.filterMap Action.event? = [] := by
      rw [List.filterMap_eq_nil_iff]
      intro action hmem
      have haction := hofRound action hmem
      cases action with
      | handle event => cases haction
      | _ => rfl
    have hsame : last.ideal = hub.ideal := by
      rw [(hattended.run hc hmore hnobody).2, hnone]
      rfl
    refine ⟨more, last, hmore, hofRound, hrest, ?_⟩
    rw [← hideal, ← hsame]
    exact matches_ideal hrest

/-- Three sessions, of which the second has a queue for nothing and the third for one message.
    The hub has to wait for the second at both updates, and for the third at the last. -/
theorem matches_of_waiting :
    ∃ (hub : Hub Recorder) (ideal : Ideal Recorder),
      (start Store.blank (.ofDisk "presets" { place := .absent } 1) [{}]).run
        [.handle (.connect ⟨1⟩ "desk" 4), .handle (.connect ⟨2⟩ "pad" 0),
          .handle (.connect ⟨3⟩ "wing" 1), .handle (.message ⟨1⟩ "x:1"), .proceed, .meet 1,
          .proceed, .proceed, .handle (.message ⟨1⟩ "y:2"), .meet 1, .proceed, .take 2, .proceed,
          .proceed] = some hub ∧
      (Ideal.start Store.blank [{}]).handleAll
        [.connect ⟨1⟩ "desk" 4, .connect ⟨2⟩ "pad" 0, .connect ⟨3⟩ "wing" 1,
          .message ⟨1⟩ "x:1", .message ⟨1⟩ "y:2"] = ideal ∧
      hub.Matches ideal ∧ hub.sessions.keys = [⟨1⟩, ⟨2⟩, ⟨3⟩] ∧
      hub.mailboxes.map Mailbox.broadcasts = [[], ["x:1", "y:2"], ["x:1", "y:2"]] := by
  obtain ⟨hmatches, -, -⟩ :=
    @matches_of_run Recorder _ _ Store.blank (.ofDisk "presets" { place := .absent } 1) [{}]
      [.handle (.connect ⟨1⟩ "desk" 4), .handle (.connect ⟨2⟩ "pad" 0),
        .handle (.connect ⟨3⟩ "wing" 1), .handle (.message ⟨1⟩ "x:1"), .proceed, .meet 1,
        .proceed, .proceed, .handle (.message ⟨1⟩ "y:2"), .meet 1, .proceed, .take 2, .proceed,
        .proceed] rfl rfl
  have hideal := hmatches rfl
  exact ⟨_, _, rfl, rfl, hideal, rfl, hideal.broadcasts.trans rfl⟩

end Hub

end ShowRelay
