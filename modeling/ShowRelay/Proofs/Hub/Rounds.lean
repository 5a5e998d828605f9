/-
  ShowRelay.Proofs.Hub.Rounds

  What becomes of the sessions that are offered a message. An event lets the hub
  offer one message, to some of the open sessions (`Hub.Offers`), and until the round
  is over each of these either gets it or is missed because its receiver is gone.
  `Hub.Underway` is the invariant of a round and `Hub.Settled` what is left when it
  is over; a round leads from the one to the other with its last step, and that step
  alone closes sessions, all that were missed and no others (`Hub.progress_of_run`).

  Receivers may leave at any time while a round lasts. Whoever has left before it
  began is missed, and whoever is there when it is over was not.
-/

import ShowRelay.Proofs.Hub.Exchange
import ShowRelay.Proofs.Hub.Ideal

namespace ShowRelay.Hub

variable {σ : Type}

/-! ## Offers -/

/-- An event lets the hub offer a message to a session: it is the update of another open
    session, or the refusal of a name that the session itself gave. -/
inductive Offers (hub : Hub σ) : Event → SessionId → Delivery → Prop where
  | update {sender id : SessionId} {raw : String}
      (haccepted : hub.accepted? (.message sender raw) = some raw)
      (hopen : hub.isOpen id = true) (hother : id ≠ sender) :
      Offers hub (.message sender raw) id (.broadcast raw)
  | refusal {id : SessionId} {raw name : String} {fault : SnapshotError}
      (hopen : hub.isOpen id = true) (hraw : Request.classify raw = .save name)
      (hname : SnapshotName.sanitize name = .error fault) :
      Offers hub (.message id raw) id (.answer Request.saveFailedTag)

variable {hub next first : Hub σ} {event : Event} {id : SessionId}

theorem isOpen_iff : hub.isOpen id = true ↔ ∃ session, hub.sessions.get? id = some session :=
  Option.isSome_iff_exists

theorem accepted?_eq_some_iff {raw text : String} :
    hub.accepted? (.message id raw) = some text ↔
      hub.isOpen id = true ∧ Request.classify raw = .update raw ∧ text = raw := by
  constructor
  · intro h
    simp only [accepted?] at h
    split at h
    · next hopen hraw =>
      cases h
      have htext := Request.eq_of_classify_eq_update hraw
      subst htext
      exact ⟨hopen, hraw, rfl⟩
    · cases h
  · rintro ⟨hopen, hraw, rfl⟩
    obtain ⟨session, hsession⟩ := isOpen_iff.1 hopen
    exact accepted?_of_open hsession hraw

/-- An event lets the hub offer one message only. -/
theorem Offers.unique {d d' : Delivery} (h : hub.Offers event id d) (h' : hub.Offers event id d') :
    d = d' := by
  cases h with
  | update haccepted hopen hother =>
    cases h' with
    | update => rfl
    | refusal => exact absurd rfl hother
  | refusal hopen hraw hname =>
    cases h' with
    | update haccepted hopen' hother => exact absurd rfl hother
    | refusal => rfl

/-- Messages are offered on account of messages, and those change neither the sessions nor
    their mailboxes. -/
theorem Offers.apart {d : Delivery} (h : hub.Offers event id d) :
    hub.isOpen id = true ∧ (hub.handle event).sessions = hub.sessions ∧
      (hub.handle event).mailboxes = hub.mailboxes := by
  cases h with
  | update haccepted hopen hother => exact ⟨hopen, hub.apart_of_message _ _⟩
  | refusal hopen hraw hname => exact ⟨hopen, hub.apart_of_message _ _⟩

/-- Who is offered a message is visited in the round that begins. -/
theorem Offers.begins {d : Delivery} (h : hub.Offers event id d) :
    ∃ round, (hub.handle event).round = some round ∧ round.delivery = d ∧ id ∈ round.pending := by
  cases h with
  | @update sender _ raw haccepted hopen hother =>
    obtain ⟨hsender, hraw, -⟩ := accepted?_eq_some_iff.1 haccepted
    obtain ⟨session, hsession⟩ := isOpen_iff.1 hsender
    refine ⟨⟨.broadcast raw, hub.sessions.keys.filter (· ≠ sender), false, []⟩, ?_, rfl, ?_⟩
    · simp only [handle, message, hsession, hraw]
      rfl
    · obtain ⟨other, hid⟩ := isOpen_iff.1 hopen
      exact List.mem_filter.2 ⟨Table.mem_keys_iff.2 ⟨other, hid⟩, decide_eq_true hother⟩
  | @refusal _ raw name fault hopen hraw hname =>
    obtain ⟨session, hsession⟩ := isOpen_iff.1 hopen
    refine ⟨⟨.answer Request.saveFailedTag, [id], false, []⟩, ?_, rfl, List.mem_singleton_self id⟩
    simp only [handle, message, hsession, hraw, save, hname]

section

variable [Sink σ] {action : Action} {round : Round}

/-- A round begins with those who are offered its message ahead, and nobody missed. -/
theorem offers_of_handle (hrest : hub.round = none)
    (hround : (hub.handle event).round = some round) :
    round.failed = [] ∧ ∀ id ∈ round.pending, hub.Offers event id round.delivery := by
  have hmove := move_handle event hrest
  generalize hub.handle event = begun at hmove hround
  cases hmove with
  | update sender raw session log _ hopen hraw =>
    cases hround
    refine ⟨rfl, fun id hid => ?_⟩
    obtain ⟨hkey, hother⟩ := List.mem_filter.1 hid
    exact .update (accepted?_of_open hopen hraw) (isOpen_iff.2 (Table.mem_keys_iff.1 hkey))
      (of_decide_eq_true hother)
  | refuse sender raw name session fault log _ hopen hraw hname =>
    cases hround
    refine ⟨rfl, fun id hid => ?_⟩
    rw [List.mem_singleton.1 hid]
    exact .refusal (isOpen_iff.2 ⟨session, hopen⟩) hraw hname
  | deliver _ _ _ _ _ _ _ haction =>
    rcases haction with h | h
    · cases h
    · cases h
  | reply _ _ _ _ haction =>
    rcases haction with h | h
    · cases h
    · cases h
  | _ =>
    have hnone : hub.round = some round := hround
    rw [hrest] at hnone
    cases hnone

end

/-! ## Being missed -/

/-- What decides about whether a session is open. -/
inductive Turn where
  | opened
  | closed
  -- Its receiver was gone when a message was offered to it.
  | missed
  deriving Repr, DecidableEq

/-- Whether the hub is at a session whose receiver is gone. -/
def misses (id : SessionId) (hub : Hub σ) : Bool :=
  match hub.round with
  | some ⟨_, head :: _, _, _⟩ =>
    head = id && (hub.mailboxOf? id).any fun (_, mailbox) => !mailbox.attended
  | _ => false

/-- What a step does that decides about a session. -/
def turnIn (id : SessionId) (hub : Hub σ) : Action → List Turn
  | .handle (.connect other _ _) => if other = id then [.opened] else []
  | .handle (.disconnect other) => if other = id then [.closed] else []
  | .proceed => if hub.misses id then [.missed] else []
  | _ => []

theorem turnIn_of_quiet {action : Action} (hquiet : action.event? = none) (hub : Hub σ)
    (id : SessionId) :
    hub.turnIn id action = if action = .proceed ∧ hub.misses id = true then [.missed] else [] := by
  cases action with
  | handle event => cases hquiet
  | proceed => simp only [turnIn, true_and]
  | _ => rfl

theorem misses_iff : hub.misses id = true ↔
    ∃ round rest number mailbox, hub.round = some round ∧ round.pending = id :: rest ∧
      hub.mailboxOf? id = some (number, mailbox) ∧ mailbox.attended = false := by
  unfold misses
  constructor
  · intro h
    split at h
    · next delivery head rest waiting failed hround =>
      rw [Bool.and_eq_true, decide_eq_true_iff, Option.any_eq_true] at h
      obtain ⟨rfl, ⟨number, mailbox⟩, hmailbox, hattended⟩ := h
      exact ⟨_, rest, number, mailbox, hround, rfl, hmailbox, by simpa using hattended⟩
    · cases h
  · rintro ⟨⟨delivery, pending, waiting, failed⟩, rest, number, mailbox, hround, hpending, hmailbox,
      hattended⟩
    cases hpending
    simp [hround, hmailbox, hattended]

/-- The hub is at one session at a time. -/
theorem misses_unique {other : SessionId} (h : hub.misses id = true)
    (hother : hub.misses other = true) : id = other := by
  obtain ⟨round, rest, -, -, hround, hpending, -⟩ := misses_iff.1 h
  obtain ⟨same, more, -, -, hsame, hagain, -⟩ := misses_iff.1 hother
  rw [hround] at hsame
  cases hsame
  rw [hpending] at hagain
  cases hagain
  rfl

section

variable [Sink σ] {action : Action} {round : Round}

/-- A session that is missed is remembered, and nothing else happens. -/
theorem proceed_of_misses (h : hub.misses id = true) (hstep : hub.step .proceed = some next) :
    ∃ round rest, hub.round = some round ∧ round.pending = id :: rest ∧
      next = { hub with round := some { round.next with failed := round.failed ++ [id] } } := by
  obtain ⟨round, rest, number, mailbox, hround, hpending, hmailbox, hattended⟩ := misses_iff.1 h
  refine ⟨round, rest, hround, hpending, ?_⟩
  simp only [step, proceed, hround, Option.bind_eq_bind, Option.bind_some, hpending, hmailbox,
    hattended, Bool.not_false, if_true, Option.some.injEq] at hstep
  exact hstep.symm

/-- The turns of a session in a run. -/
def turns (id : SessionId) (hub : Hub σ) (actions : List Action) : List Turn :=
  hub.history (turnIn id) actions

end

/-! ## What has become of a session -/

/-- Some messages of rounds have come into the mailbox that a session had first. -/
def Came (first hub : Hub σ) (id : SessionId) (ds : List Delivery) : Prop :=
  ∃ number old mailbox, first.mailboxOf? id = some (number, old) ∧
    hub.mailboxes[number]? = some mailbox ∧ mailbox.offered = old.offered ++ ds

/-- The receiver of the mailbox that a session had first is gone. -/
def Gone (first hub : Hub σ) (id : SessionId) : Prop :=
  ∃ number old mailbox, first.mailboxOf? id = some (number, old) ∧
    hub.mailboxes[number]? = some mailbox ∧ mailbox.attended = false

variable {ds : List Delivery}

theorem Came.keep (h : Came first hub id ds) (hmailboxes : next.mailboxes = hub.mailboxes) :
    Came first next id ds := by
  rw [Came, hmailboxes]
  exact h

/-- Another mailbox was changed, or nothing of a round has come in. -/
theorem Came.set (h : Came first hub id ds) {other : Nat} {found changed : Mailbox}
    (hfound : hub.mailboxes[other]? = some found)
    (hsame : ∀ {number old}, first.mailboxOf? id = some (number, old) → other = number →
      changed.offered = found.offered)
    (hmailboxes : next.mailboxes = hub.mailboxes.set other changed) : Came first next id ds := by
  obtain ⟨number, old, mailbox, hold, hat, hoffered⟩ := h
  rw [Came, hmailboxes]
  by_cases hother : other = number
  · subst hother
    rw [hat] at hfound
    cases hfound
    have hlt := (List.getElem?_eq_some_iff.1 hat).1
    exact ⟨other, old, changed, hold, List.getElem?_set_self hlt, by
      rw [hsame hold rfl, hoffered]⟩
  · exact ⟨number, old, mailbox, hold, by rw [List.getElem?_set_ne hother, hat], hoffered⟩

/-- A round has offered the message of an event to some sessions, where `record` has the turns
    of all sessions since the event. -/
structure Underway (first : Hub σ) (event : Event) (record : SessionId → List Turn) (hub : Hub σ)
    (round : Round) : Prop where
  -- Sessions are closed when it is over.
  sessions : hub.sessions = (first.handle event).sessions
  recorded : ∀ id, record id = if id ∈ round.failed then [.missed] else []
  -- Those still to be visited have got nothing so far.
  ahead : ∀ id ∈ round.pending, first.Offers event id round.delivery ∧ id ∉ round.failed ∧
    Came first hub id []
  missed : ∀ id ∈ round.failed, first.Offers event id round.delivery ∧ Gone first hub id
  served : ∀ id d, first.Offers event id d → id ∉ round.pending → id ∉ round.failed →
    Came first hub id [d]

/-- Everyone was offered the message of an event. -/
structure Settled (first : Hub σ) (event : Event) (record : SessionId → List Turn)
    (last : Hub σ) : Prop where
  -- Nobody is missed twice.
  recorded : ∀ id, record id = [] ∨ record id = [.missed]
  -- Those who were missed are closed, and no others.
  sessions : ∀ id, last.sessions.get? id =
    if record id = [] then (first.handle event).sessions.get? id else none
  missed : ∀ id, record id = [.missed] → (∃ d, first.Offers event id d) ∧ Gone first last id
  served : ∀ id d, first.Offers event id d → record id = [] → Came first last id [d]

variable {record more : SessionId → List Turn} {round : Round}

/-- Who is still to be visited has the mailbox that it had first. -/
theorem Underway.mailboxOf? (h : Underway first event record hub round)
    (hid : id ∈ round.pending) {number : Nat} {mailbox : Mailbox}
    (hmailbox : hub.mailboxOf? id = some (number, mailbox)) :
    ∃ old, first.mailboxOf? id = some (number, old) ∧ mailbox.offered = old.offered := by
  obtain ⟨hoffers, -, held, old, found, hold, hfound, hoffered⟩ := h.ahead id hid
  obtain ⟨⟨session, hsession, rfl⟩, hat⟩ := mailboxOf?_eq_some_iff.1 hmailbox
  obtain ⟨⟨registered, hregistered, rfl⟩, -⟩ := mailboxOf?_eq_some_iff.1 hold
  rw [h.sessions, hoffers.apart.2.1, hregistered] at hsession
  cases hsession
  rw [hat] at hfound
  cases hfound
  exact ⟨old, hold, hoffered.trans (List.append_nil _)⟩

/-- Different sessions had different mailboxes first. -/
theorem Underway.apart (h : Underway first event record hub round) (hc : hub.Coherent)
    {head : SessionId} {d : Delivery} (hoffers : first.Offers event id d) (hne : id ≠ head)
    {number held : Nat} {mailbox old : Mailbox}
    (hmailbox : hub.mailboxOf? head = some (number, mailbox))
    (hold : first.mailboxOf? id = some (held, old)) : number ≠ held := by
  obtain ⟨⟨session, hsession, hnumber⟩, -⟩ := mailboxOf?_eq_some_iff.1 hmailbox
  obtain ⟨⟨other, hother, hheld⟩, -⟩ := mailboxOf?_eq_some_iff.1 hold
  rw [← hoffers.apart.2.1, ← h.sessions] at hother
  intro hsame
  exact hne (hc.registers.distinct hother hsession (by rw [hheld, hnumber, hsame]))

/-- The session at hand is missed. -/
theorem Underway.miss (h : Underway first event record hub round) (hc : hub.Coherent)
    (hround : hub.round = some round) {head : SessionId} {rest : List SessionId}
    (hpending : round.pending = head :: rest) (hmisses : hub.misses head = true)
    (hsessions : next.sessions = hub.sessions) (hmailboxes : next.mailboxes = hub.mailboxes)
    (hmore : ∀ id, more id = if id = head then [.missed] else []) :
    Underway first event (fun id => record id ++ more id) next
      { round.next with failed := round.failed ++ [head] } := by
  have hnodup := (hc.fits round hround).nodup
  rw [hpending, List.nodup_cons] at hnodup
  have hhead : head ∈ round.pending := by rw [hpending]; exact List.mem_cons_self
  obtain ⟨hoffers, hnew, -⟩ := h.ahead head hhead
  have hrest : ∀ id, id ∈ rest → id ∈ round.pending := by
    intro id hid
    rw [hpending]
    exact List.mem_cons_of_mem head hid
  refine ⟨hsessions.trans h.sessions, fun id => ?_, fun id hid => ?_, fun id hid => ?_,
    fun id d hid hnot hnot' => ?_⟩
  · rw [h.recorded, hmore]
    by_cases hid : id = head
    · simp [hid, hnew]
    · simp [hid]
  · have hmem : id ∈ rest := by rwa [Round.next, hpending] at hid
    obtain ⟨hoffers', hnot, hnothing⟩ := h.ahead id (hrest id hmem)
    have hne : id ≠ head := fun heq => hnodup.1 (heq ▸ hmem)
    refine ⟨hoffers', ?_, hnothing.keep hmailboxes⟩
    simp [hnot, hne]
  · rcases List.mem_append.1 hid with hid | hid
    · obtain ⟨hoffers', hgone⟩ := h.missed id hid
      rw [Gone, hmailboxes]
      exact ⟨hoffers', hgone⟩
    · rw [List.mem_singleton.1 hid]
      obtain ⟨-, -, number, mailbox, -, -, hmailbox, hattended⟩ := misses_iff.1 hmisses
      obtain ⟨old, hold, -⟩ := h.mailboxOf? hhead hmailbox
      have hat := (mailboxOf?_eq_some_iff.1 hmailbox).2
      rw [← hmailboxes] at hat
      exact ⟨hoffers, number, old, mailbox, hold, hat, hattended⟩
  · rw [List.mem_append, not_or, List.mem_singleton] at hnot'
    refine (h.served id d hid ?_ hnot'.1).keep hmailboxes
    rw [hpending, List.mem_cons, not_or]
    rw [Round.next, hpending] at hnot
    exact ⟨hnot'.2, hnot⟩

section

variable [Sink σ] {action : Action}

theorem Gone.of_move (h : Gone first hub id) (hmove : Move hub action next) :
    Gone first next id := by
  obtain ⟨number, old, mailbox, hold, hat, hgone⟩ := h
  exact ⟨number, old, mailbox, hold, frozen_of_move hmove hat hgone, hgone⟩

/-- A step that has nothing to do with the round. -/
theorem Underway.keep (h : Underway first event record hub round) (hmove : Move hub action next)
    {same : Round} (hsessions : next.sessions = hub.sessions)
    (hdelivery : same.delivery = round.delivery) (hpending : same.pending = round.pending)
    (hfailed : same.failed = round.failed) (hmore : ∀ id, more id = [])
    (hcame : ∀ {id ds}, Came first hub id ds → Came first next id ds) :
    Underway first event (fun id => record id ++ more id) next same := by
  refine ⟨hsessions.trans h.sessions, ?_, ?_, ?_, ?_⟩
  · intro id
    rw [hmore, List.append_nil, hfailed, h.recorded]
  · rw [hdelivery, hpending, hfailed]
    intro id hid
    obtain ⟨hoffers, hnot, hnothing⟩ := h.ahead id hid
    exact ⟨hoffers, hnot, hcame hnothing⟩
  · rw [hdelivery, hfailed]
    intro id hid
    exact ⟨(h.missed id hid).1, (h.missed id hid).2.of_move hmove⟩
  · rw [hpending, hfailed]
    intro id d hoffers hnot hnot'
    exact hcame (h.served id d hoffers hnot hnot')

/-- The session at hand gets the message. -/
theorem Underway.serve (h : Underway first event record hub round) (hc : hub.Coherent)
    (hround : hub.round = some round) {head : SessionId} {rest : List SessionId}
    (hpending : round.pending = head :: rest) {number : Nat} {mailbox changed : Mailbox}
    (hmailbox : hub.mailboxOf? head = some (number, mailbox))
    (haccepts : mailbox.Accepts round.delivery changed)
    (hsessions : next.sessions = hub.sessions)
    (hmailboxes : next.mailboxes = hub.mailboxes.set number changed)
    (hmove : Move hub action next) (hmore : ∀ id, more id = []) :
    Underway first event (fun id => record id ++ more id) next round.next := by
  have hnodup := (hc.fits round hround).nodup
  rw [hpending, List.nodup_cons] at hnodup
  have hhead : head ∈ round.pending := by rw [hpending]; exact List.mem_cons_self
  have hat := (mailboxOf?_eq_some_iff.1 hmailbox).2
  -- To the others it is nothing.
  have hother : ∀ {id ds d}, first.Offers event id d → id ≠ head → Came first hub id ds →
      Came first next id ds := by
    intro id ds d hoffers hne hcame
    refine hcame.set hat (fun hold hsame => ?_) hmailboxes
    exact absurd hsame (h.apart hc hoffers hne hmailbox hold)
  refine ⟨hsessions.trans h.sessions, fun id => ?_, fun id hid => ?_, fun id hid => ?_,
    fun id d hid hnot hnot' => ?_⟩
  · rw [hmore, List.append_nil, h.recorded]
    rfl
  · have hmem : id ∈ rest := by rwa [Round.next, hpending] at hid
    have hne : id ≠ head := fun heq => hnodup.1 (heq ▸ hmem)
    obtain ⟨hoffers, hnew, hnothing⟩ := h.ahead id
      (by rw [hpending]; exact List.mem_cons_of_mem head hmem)
    exact ⟨hoffers, hnew, hother hoffers hne hnothing⟩
  · exact ⟨(h.missed id hid).1, (h.missed id hid).2.of_move hmove⟩
  · by_cases hne : id = head
    · subst hne
      have hdelivery : d = round.delivery := hid.unique (h.ahead id hhead).1
      obtain ⟨old, hold, hsame⟩ := h.mailboxOf? hhead hmailbox
      have hlt := (List.getElem?_eq_some_iff.1 hat).1
      refine ⟨number, old, changed, hold, ?_, ?_⟩
      · rw [hmailboxes, List.getElem?_set_self hlt]
      · rw [hc.offered_of_deliver hround hat haccepts, hsame, hdelivery]
    · refine hother hid hne (h.served id d hid ?_ hnot')
      rw [hpending, List.mem_cons, not_or]
      rw [Round.next, hpending] at hnot
      exact ⟨hne, hnot⟩

end

/-- The round is over. -/
theorem Underway.conclude (h : Underway first event record hub round)
    (hpending : round.pending = []) (hmore : ∀ id, more id = [])
    (hsessions : next.sessions = round.failed.foldl Table.erase hub.sessions)
    (hmailboxes : next.mailboxes = hub.mailboxes) :
    Settled first event (fun id => record id ++ more id) next := by
  have hrecord : ∀ id, record id ++ more id = if id ∈ round.failed then [.missed] else [] := by
    intro id
    rw [hmore, List.append_nil, h.recorded]
  have hmissed : ∀ id, record id ++ more id = [.missed] → id ∈ round.failed := by
    intro id hid
    rw [hrecord] at hid
    split at hid
    · assumption
    · cases hid
  refine ⟨fun id => ?_, fun id => ?_, fun id hid => ?_, fun id d hoffers hid => ?_⟩
  · rw [hrecord]
    split
    · exact .inr rfl
    · exact .inl rfl
  · rw [hrecord, hsessions, Table.get?_foldl_erase, h.sessions]
    by_cases hid : id ∈ round.failed
    · rw [if_pos hid, if_pos hid, if_neg (List.cons_ne_nil _ _)]
    · rw [if_neg hid, if_neg hid, if_pos rfl]
  · obtain ⟨hoffers, hgone⟩ := h.missed id (hmissed id hid)
    rw [Gone, hmailboxes]
    exact ⟨⟨_, hoffers⟩, hgone⟩
  · have hnot : id ∉ round.failed := by
      intro hmem
      rw [hrecord, if_pos hmem] at hid
      cases hid
    refine (h.served id d hoffers ?_ hnot).keep hmailboxes
    rw [hpending]
    exact List.not_mem_nil

/-- Of the sessions that were open before a message, those stay open that were not missed. -/
theorem Settled.isOpen_iff {record : SessionId → List Turn}
    (h : Settled first event record hub)
    (hsessions : (first.handle event).sessions = first.sessions)
    (id : SessionId) :
    hub.isOpen id = true ↔ first.isOpen id = true ∧ record id = [] := by
  rw [Hub.isOpen_iff, Hub.isOpen_iff, h.sessions, hsessions]
  by_cases hrecord : record id = []
  · simp [hrecord]
  · simp [hrecord]

/-! ## Steps aside -/

/-- Whether a step is one of the snapshot writer, or of a receiver without the hub. -/
def Action.isAside : Action → Bool
  | .write _ | .answer | .take _ | .meetAnswer _ | .leave _ => true
  | _ => false

theorem turnIn_of_aside {action : Action} (h : action.isAside = true) (hub : Hub σ)
    (id : SessionId) : hub.turnIn id action = [] := by
  cases action with
  | handle event => cases h
  | proceed => cases h
  | _ => rfl

section

variable [Sink σ] {action : Action}

/-- Steps aside have no part in the round, open and close nothing, and bring no message of a
    round. -/
theorem apart_of_aside (hmove : Move hub action next) (hc : hub.Coherent)
    (haside : action.isAside = true) :
    next.round = hub.round ∧ next.sessions = hub.sessions ∧
      ∀ {first : Hub σ} {id ds}, Came first hub id ds → Came first next id ds := by
  cases hmove with
  | write => exact ⟨rfl, rfl, fun hcame => hcame.keep rfl⟩
  | drop => exact ⟨rfl, rfl, fun hcame => hcame.keep rfl⟩
  | reply _ outcome mailbox changed haction houtcome hat haccepts =>
    exact ⟨rfl, rfl, fun hcame =>
      hcame.set hat (fun _ _ => hc.offered_of_reply houtcome hat haccepts) rfl⟩
  | take number mailbox changed hat htake =>
    refine ⟨rfl, rfl, fun hcame => hcame.set hat (fun _ _ => ?_) rfl⟩
    rw [Mailbox.offered, Mailbox.contents_take? htake, Mailbox.offered]
  | leave number mailbox hat hattended =>
    have hsame : mailbox.leave.offered = mailbox.offered := rfl
    exact ⟨rfl, rfl, fun hcame => hcame.set hat (fun _ _ => hsame) rfl⟩
  | deliver _ _ _ _ _ _ _ haction =>
    rcases haction with rfl | rfl
    · cases haside
    · cases haside
  | _ => cases haside

/-- Between rounds and events only steps aside can be taken. -/
theorem aside_of_rest (hrest : hub.round = none) (hstep : hub.step action = some next)
    (hquiet : action.event? = none) : action.isAside = true := by
  cases action with
  | handle event => cases hquiet
  | proceed => simp [step, proceed, hrest] at hstep
  | meet number => simp [step, meet, hrest] at hstep
  | _ => rfl

theorem Settled.keep (h : Settled first event record hub) (hmove : Move hub action next)
    (hsessions : next.sessions = hub.sessions) (hmore : ∀ id, more id = [])
    (hcame : ∀ {id ds}, Came first hub id ds → Came first next id ds) :
    Settled first event (fun id => record id ++ more id) next := by
  have hrecord : (fun id => record id ++ more id) = record := by
    funext id
    rw [hmore, List.append_nil]
  rw [hrecord]
  refine ⟨h.recorded, fun id => ?_, fun id hid => ?_, fun id d hoffers hid => ?_⟩
  · rw [hsessions, h.sessions]
  · exact ⟨(h.missed id hid).1, (h.missed id hid).2.of_move hmove⟩
  · exact hcame (h.served id d hoffers hid)

/-! ## Progress -/

/-- The message of an event is on its way, or everyone was offered it. -/
inductive Progress (first : Hub σ) (event : Event) (record : SessionId → List Turn)
    (hub : Hub σ) : Prop where
  | underway {round : Round} (hround : hub.round = some round)
      (h : Underway first event record hub round)
  | settled (hrest : hub.round = none) (h : Settled first event record hub)

/-- It begins with nobody served and nobody missed. -/
theorem progress_of_handle (hc : first.Coherent) (hrest : first.round = none) (event : Event) :
    Progress first event (fun _ => []) (first.handle event) := by
  cases hround : (first.handle event).round with
  | none =>
    have hnobody : ∀ id d, ¬ first.Offers event id d := by
      intro id d hoffers
      obtain ⟨round, hsome, -⟩ := hoffers.begins
      rw [hround] at hsome
      cases hsome
    refine .settled hround ⟨fun _ => .inl rfl, fun _ => (if_pos rfl).symm, ?_, ?_⟩
    · intro id hid
      cases hid
    · intro id d hoffers
      exact absurd hoffers (hnobody id d)
  | some round =>
    obtain ⟨hfailed, hoffers⟩ := offers_of_handle hrest hround
    refine .underway hround ⟨rfl, ?_, ?_, ?_, ?_⟩
    · intro id
      rw [hfailed, if_neg List.not_mem_nil]
    · intro id hid
      obtain ⟨hopen, -, hmailboxes⟩ := (hoffers id hid).apart
      obtain ⟨session, hsession⟩ := isOpen_iff.1 hopen
      obtain ⟨mailbox, hmailbox⟩ := hc.mailboxOf?_isSome hsession
      refine ⟨hoffers id hid, by rw [hfailed]; exact List.not_mem_nil, ?_⟩
      refine ⟨session.mailbox, mailbox, mailbox, hmailbox, ?_, (List.append_nil _).symm⟩
      rw [hmailboxes]
      exact (mailboxOf?_eq_some_iff.1 hmailbox).2
    · intro id hid
      rw [hfailed] at hid
      cases hid
    · -- Everyone to whom the message is offered is still to be visited.
      intro id d hid hnot
      obtain ⟨begun, hbegun, -, hmem⟩ := hid.begins
      rw [hround] at hbegun
      cases hbegun
      exact absurd hmem hnot

/-- A step in a round that misses nobody. -/
theorem Underway.progress (h : Underway first event record hub round) (hc : hub.Coherent)
    (hround : hub.round = some round) (hmove : Move hub action next)
    (hquiet : action.event? = none) (hnone : ∀ id, hub.turnIn id action = []) :
    Progress first event (fun id => record id ++ hub.turnIn id action) next := by
  have hsame : ∀ {other : Round}, hub.round = some other → other = round := by
    intro other hother
    rw [hround] at hother
    exact (Option.some.inj hother).symm
  have haside : action.isAside = true →
      Progress first event (fun id => record id ++ hub.turnIn id action) next := by
    intro haside
    obtain ⟨hnext, hsessions, hcame⟩ := apart_of_aside hmove hc haside
    exact .underway (hnext.trans hround) (h.keep hmove hsessions rfl rfl rfl hnone hcame)
  have hmove' := hmove
  cases hmove with
  | passOn other raw log hother hpending hdelivery =>
    cases hsame hother
    exact .settled rfl (h.conclude hpending hnone rfl rfl)
  | settle other text log hother hpending hdelivery =>
    cases hsame hother
    exact .settled rfl (h.conclude hpending hnone rfl rfl)
  | pass other id rest hother hpending hmailbox =>
    -- This never happens.
    obtain ⟨number, mailbox, hsome⟩ := hc.exists_mailbox hother hpending
    rw [hmailbox] at hsome
    cases hsome
  | miss other id rest number mailbox hother hpending hmailbox hattended =>
    have hmisses : hub.misses id = true :=
      misses_iff.2 ⟨other, rest, number, mailbox, hother, hpending, hmailbox, hattended⟩
    have hturn := hnone id
    rw [turnIn, if_pos hmisses] at hturn
    cases hturn
  | deliver _ other id rest number mailbox changed haction hother hpending hmailbox haccepts =>
    cases hsame hother
    exact .underway rfl (h.serve hc hround hpending hmailbox haccepts rfl rfl hmove' hnone)
  | wait other log hother hpending =>
    cases hsame hother
    exact .underway rfl (h.keep hmove' rfl rfl rfl rfl hnone fun hcame => hcame.keep rfl)
  | reply _ _ _ _ haction =>
    rcases haction with rfl | rfl
    · exact haside rfl
    · exact haside rfl
  | write => exact haside rfl
  | drop => exact haside rfl
  | take => exact haside rfl
  | leave => exact haside rfl
  | _ => cases hquiet

/-- Between events the hub is left to itself, its snapshot writer and the receivers. -/
theorem progress_of_step (h : Progress first event record hub) (hc : hub.Coherent)
    (hstep : hub.step action = some next) (hquiet : action.event? = none) :
    Progress first event (fun id => record id ++ hub.turnIn id action) next := by
  have hmove := move_of_step hstep
  cases h with
  | settled hrest h =>
    have haside := aside_of_rest hrest hstep hquiet
    obtain ⟨hsame, hsessions, hcame⟩ := apart_of_aside hmove hc haside
    exact .settled (hsame.trans hrest)
      (h.keep hmove hsessions (turnIn_of_aside haside hub) hcame)
  | @underway round hround h =>
    by_cases hmissed : action = .proceed ∧ ∃ id, hub.misses id = true
    · obtain ⟨rfl, head, hmisses⟩ := hmissed
      obtain ⟨other, rest, hother, hpending, rfl⟩ := proceed_of_misses hmisses hstep
      rw [hround] at hother
      cases hother
      refine .underway rfl (h.miss hc hround hpending hmisses rfl rfl fun id => ?_)
      -- Nobody else is missed in the same step.
      rw [turnIn]
      by_cases hid : id = head
      · rw [hid, if_pos hmisses, if_pos rfl]
      · rw [if_neg hid, if_neg fun hother => hid (misses_unique hother hmisses)]
    · refine h.progress hc hround hmove hquiet fun id => ?_
      rw [turnIn_of_quiet hquiet, if_neg]
      rintro ⟨rfl, hmisses⟩
      exact hmissed ⟨rfl, id, hmisses⟩

/-- What becomes of the message of an event in a run without another event. The round that it
    begins leads from nobody served and nobody missed to everyone being one of the two, and
    at that point those missed are closed. -/
theorem progress_of_run (hc : first.Coherent) (hrest : first.round = none) (event : Event)
    {during : List Action} (hquiet : ∀ action ∈ during, action.event? = none)
    (hrun : (first.handle event).run during = some hub) :
    Progress first event (fun id => (first.handle event).turns id during) hub := by
  have hbegun : (first.handle event).Coherent := coherent_of_move (move_handle event hrest) hc
  revert hquiet
  refine run_induction (motive := fun during hub => (∀ action ∈ during, action.event? = none) →
    Progress first event (fun id => (first.handle event).turns id during) hub) ?_ ?_ hrun
  · intro _
    exact progress_of_handle hc hrest event
  · intro actions hub action next hactions h hstep _ hquiet
    rw [List.forall_mem_append, List.forall_mem_singleton] at hquiet
    have hrecord : (fun id => (first.handle event).turns id (actions ++ [action])) =
        fun id => (first.handle event).turns id actions ++ hub.turnIn id action := by
      funext id
      exact history_concat (turnIn id) action hactions
    rw [hrecord]
    exact progress_of_step (h hquiet.1) (hbegun.run hactions) hstep hquiet.2

end

end ShowRelay.Hub
