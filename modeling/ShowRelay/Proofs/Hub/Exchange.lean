/-
  ShowRelay.Proofs.Hub.Exchange

  What a hub takes in and gives out in a step, seen from the connections around
  it. Taking in: the messages of open sessions are heard, and what is heard
  decides about the store (`Hub.store_of_event`). Giving out: the hub and its
  snapshot writer put messages into mailboxes and do nothing else to them
  (`Hub.mailbox_of_work`).

  Sessions are opened by connections only; in all other steps they become fewer.
-/

import ShowRelay.Proofs.Hub.Coherence
import ShowRelay.Proofs.Hub.Merging

namespace ShowRelay

/-- The update that a message is, unless it asks for a snapshot. -/
def Request.update? (raw : String) : Option String :=
  match classify raw with
  | .update raw => some raw
  | .save _ => none

/-! ## Putting -/

namespace Mailbox

/-- The mailbox with some more messages waiting. -/
def putAll (ds : List Delivery) (m : Mailbox) : Mailbox := { m with queued := m.queued ++ ds }

theorem putAll_nil (m : Mailbox) : m.putAll [] = m := by
  rw [putAll, List.append_nil]

theorem contents_putAll (ds : List Delivery) (m : Mailbox) :
    (m.putAll ds).contents = m.contents ++ ds := by
  rw [contents, contents, putAll, List.append_assoc]

/-- Whether a message can be put down for a receiver that is there. -/
def isOpen (m : Mailbox) : Bool := m.attended && m.hasRoom

end Mailbox

namespace Hub

/-! ## Events -/

/-- The session that an event is about. -/
def Event.id : Event → SessionId
  | connect id _ _ => id
  | message id _ => id
  | disconnect id => id

/-- The message that an event brings. -/
def Event.raw? : Event → Option String
  | message _ raw => some raw
  | _ => none

variable {σ : Type}

theorem sessions_connect (hub : Hub σ) (id : SessionId) (peer : String) (depth : Nat) :
    (hub.handle (.connect id peer depth)).sessions =
      hub.sessions.insert id ⟨peer, hub.mailboxes.length⟩ := by
  simp only [handle, connect]
  split
  · rfl
  · rfl

theorem mailboxes_connect (hub : Hub σ) (id : SessionId) (peer : String) (depth : Nat) :
    (hub.handle (.connect id peer depth)).mailboxes =
      hub.mailboxes ++ [({ depth } : Mailbox)] := by
  simp only [handle, connect]
  split
  · rfl
  · rfl

/-- A message changes neither who is there nor what waits for whom. -/
theorem apart_of_message (hub : Hub σ) (id : SessionId) (raw : String) :
    (hub.handle (.message id raw)).sessions = hub.sessions ∧
      (hub.handle (.message id raw)).mailboxes = hub.mailboxes := by
  simp only [handle, message]
  split
  · exact ⟨rfl, rfl⟩
  · split
    · unfold save
      split
      · exact ⟨rfl, rfl⟩
      · exact ⟨rfl, rfl⟩
    · exact ⟨rfl, rfl⟩

theorem sessions_disconnect (hub : Hub σ) (id : SessionId) :
    (hub.handle (.disconnect id)).sessions = hub.sessions.erase id := by
  simp only [handle, disconnect]
  split
  · next hclosed => rw [Table.erase_eq_self hclosed]
  · rfl

theorem mailboxes_disconnect (hub : Hub σ) (id : SessionId) :
    (hub.handle (.disconnect id)).mailboxes = hub.mailboxes := by
  simp only [handle, disconnect]
  split
  · rfl
  · rfl

/-- Apart from connections, events open no session and change no mailbox. -/
theorem apart_of_event (hub : Hub σ) {event : Event}
    (hother : ∀ id peer depth, event ≠ .connect id peer depth) :
    (hub.handle event).mailboxes = hub.mailboxes ∧
      ∀ {id session}, (hub.handle event).sessions.get? id = some session →
        hub.sessions.get? id = some session := by
  cases event with
  | connect id peer depth => exact absurd rfl (hother id peer depth)
  | message id raw =>
    obtain ⟨hsessions, hmailboxes⟩ := hub.apart_of_message id raw
    rw [hsessions, hmailboxes]
    exact ⟨rfl, fun hsession => hsession⟩
  | disconnect id =>
    refine ⟨hub.mailboxes_disconnect id, fun {other session} hsession => ?_⟩
    rw [sessions_disconnect, Table.get?_erase] at hsession
    split at hsession
    · cases hsession
    · exact hsession

/-- The message that the hub accepts with an event, an update or not, and its session. -/
def heard? (hub : Hub σ) : Event → Option (SessionId × String)
  | .message id raw => if hub.isOpen id then some (id, raw) else none
  | _ => none

/-- The accepted updates are those among the accepted messages. -/
theorem accepted?_eq_heard? (hub : Hub σ) (event : Event) :
    hub.accepted? event = (hub.heard? event).bind fun entry => Request.update? entry.2 := by
  cases event with
  | connect id peer depth => rfl
  | disconnect id => rfl
  | message id raw =>
    simp only [accepted?, heard?, Request.update?]
    cases hub.isOpen id with
    | false => rfl
    | true =>
      cases hraw : Request.classify raw with
      | save name => simp [hraw]
      | update text => simp [hraw]

/-- What is heard decides about the store. -/
theorem store_of_event (hub : Hub σ) (event : Event) :
    (hub.handle event).store =
      hub.store.replay
        ((hub.heard? event).toList.filterMap fun entry => Request.update? entry.2) := by
  rw [store_handle, accepted?_eq_heard?]
  cases hub.heard? event with
  | none => rfl
  | some entry =>
    rw [Option.bind_some, Option.toList_some, List.filterMap_cons]
    cases Request.update? entry.2 with
    | none => rfl
    | some raw => rfl

/-! ## Messages for mailboxes -/

/-- What the hub or its snapshot writer puts into a mailbox in a step of its own. -/
def putIn (number : Nat) (hub : Hub σ) : Action → List Delivery
  | .proceed =>
    match hub.round with
    | some ⟨delivery, id :: _, _, _⟩ =>
      if (hub.mailboxOf? id).any fun (held, mailbox) => held = number && mailbox.isOpen then
        [delivery]
      else []
    | _ => []
  | .answer =>
    match hub.outcome with
    | some outcome =>
      if outcome.mailbox = number ∧ hub.mailboxes[outcome.mailbox]?.any Mailbox.isOpen then
        [.answer outcome.text]
      else []
    | none => []
  | _ => []

/-- Whether a step is one of the hub or its snapshot writer without a part of others. -/
def Action.isWork : Action → Bool
  | proceed | write _ | answer => true
  | _ => false

/-- A mailbox into which nothing is put stays as it is. -/
theorem map_putAll_nil (mailbox : Option Mailbox) : mailbox.map (Mailbox.putAll []) = mailbox := by
  rw [funext Mailbox.putAll_nil, Option.map_id']

/-- To put a message into one mailbox is to put nothing into the others. -/
theorem getElem?_put (hub : Hub σ) (held number : Nat) (d : Delivery) :
    (hub.changeMailbox held (·.put d)).mailboxes[number]? =
      hub.mailboxes[number]?.map (Mailbox.putAll (if held = number then [d] else [])) := by
  rw [changeMailbox, List.getElem?_modify]
  by_cases h : held = number
  · simp only [h, if_true]
    rfl
  · simp only [h, if_false, map_putAll_nil]
    exact Option.map_id'

variable {hub next : Hub σ}

theorem mailbox_of_answer (h : hub.answer = some next) (number : Nat) :
    next.mailboxes[number]? =
      hub.mailboxes[number]?.map (Mailbox.putAll (hub.putIn number .answer)) := by
  unfold answer at h
  obtain ⟨outcome, houtcome, h⟩ := Option.bind_eq_some_iff.1 h
  simp only [putIn, houtcome]
  dsimp only at h
  split at h
  · next hnone =>
    cases h
    simp only [hnone, Option.any_none, Bool.false_eq_true, and_false, if_false, map_putAll_nil]
  · next mailbox hat =>
    simp only [hat, Option.any_some, Mailbox.isOpen, Bool.and_eq_true]
    split at h
    · next hgone =>
      cases h
      have hclosed : ¬(outcome.mailbox = number ∧ mailbox.attended = true ∧
          mailbox.hasRoom = true) := fun hopen => absurd hopen.2.1 (by simpa using hgone)
      rw [if_neg hclosed, map_putAll_nil]
    · next hthere =>
      split at h
      · next hroom =>
        cases h
        have hattended : mailbox.attended = true := by simpa using hthere
        simp only [hattended, hroom, and_true]
        exact getElem?_put { hub with outcome := none } outcome.mailbox number _
      · cases h

theorem mailbox_of_write {replies : List Saving.Reply} (h : hub.write replies = some next)
    (number : Nat) :
    next.mailboxes[number]? =
      hub.mailboxes[number]?.map (Mailbox.putAll (hub.putIn number (.write replies))) := by
  unfold write at h
  split at h
  · cases h
    exact (map_putAll_nil _).symm
  · cases h

section

variable [Sink σ] {action : Action}

theorem mailboxes_conclude (hub : Hub σ) (round : Round) :
    (hub.conclude round).mailboxes = hub.mailboxes := by
  obtain ⟨log, hlog⟩ := foldl_evict round.failed { hub with round := none }
  unfold conclude
  rw [hlog]
  split
  · rfl
  · rfl

theorem mailbox_of_proceed (h : hub.proceed = some next) (number : Nat) :
    next.mailboxes[number]? =
      hub.mailboxes[number]?.map (Mailbox.putAll (hub.putIn number .proceed)) := by
  unfold proceed at h
  obtain ⟨round, hround, h⟩ := Option.bind_eq_some_iff.1 h
  obtain ⟨delivery, pending, waiting, failed⟩ := round
  simp only [putIn, hround]
  split at h
  · next hpending =>
    cases h
    cases hpending
    rw [mailboxes_conclude, map_putAll_nil]
  · next id rest hpending =>
    cases hpending
    split at h
    · next hnone =>
      cases h
      simp only [hnone, Option.any_none, Bool.false_eq_true, if_false, map_putAll_nil]
    · next held mailbox hfound =>
      have hat := (mailboxOf?_eq_some_iff.1 hfound).2
      simp only [hfound, Option.any_some, Mailbox.isOpen, Bool.and_eq_true, decide_eq_true_eq]
      split at h
      · next hgone =>
        cases h
        have hclosed : ¬(held = number ∧ mailbox.attended = true ∧ mailbox.hasRoom = true) :=
          fun hopen => absurd hopen.2.1 (by simpa using hgone)
        rw [if_neg hclosed, map_putAll_nil]
      · next hthere =>
        split at h
        · next hroom =>
          cases h
          have hattended : mailbox.attended = true := by simpa using hthere
          simp only [hattended, hroom, and_true]
          exact getElem?_put hub held number delivery
        · next hfull =>
          have hclosed : ¬(held = number ∧ mailbox.attended = true ∧ mailbox.hasRoom = true) :=
            fun hopen => hfull hopen.2.2
          rw [if_neg hclosed, map_putAll_nil]
          split at h
          · cases h
          · cases h
            rfl

/-- What the hub and its snapshot writer do to a mailbox in steps of their own is to put
    messages into it. -/
theorem mailbox_of_work (hwork : action.isWork = true) (h : hub.step action = some next)
    (number : Nat) :
    next.mailboxes[number]? =
      hub.mailboxes[number]?.map (Mailbox.putAll (hub.putIn number action)) := by
  cases action with
  | proceed => exact mailbox_of_proceed h number
  | answer => exact mailbox_of_answer h number
  | write => exact mailbox_of_write h number
  | _ => cases hwork

/-- Work of the hub and its snapshot writer changes the store of no show. -/
theorem store_of_work (hwork : action.isWork = true) (h : hub.step action = some next) :
    next.store = hub.store := by
  have hnone : hub.updateIn action = [] := by
    cases action with
    | proceed => rfl
    | answer => rfl
    | write => rfl
    | _ => cases hwork
  exact store_of_move (move_of_step h) hnone

/-- Work of the hub opens no session. -/
theorem sessions_of_work (hwork : action.isWork = true) (h : hub.step action = some next)
    {id : SessionId} {session : Registration} (hsession : next.sessions.get? id = some session) :
    hub.sessions.get? id = some session := by
  have hdropped : ∀ ids : List SessionId,
      (ids.foldl Table.erase hub.sessions).get? id = some session →
        hub.sessions.get? id = some session := by
    intro ids hfound
    rw [Table.get?_foldl_erase] at hfound
    split at hfound
    · cases hfound
    · exact hfound
  cases move_of_step h with
  | passOn round raw log hround hpending hdelivery => exact hdropped _ hsession
  | settle round text log hround hpending hdelivery => exact hdropped _ hsession
  | connect => cases hwork
  | disconnect => cases hwork
  | _ => exact hsession

end

end Hub

end ShowRelay
