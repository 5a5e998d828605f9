/-
  ShowRelay.Proofs.Hub.Coherence

  What holds of a hub at any time (`Hub.Coherent`): every open session has a
  mailbox of its own, no mailbox holds more than it can, a round visits each
  session once and remembers none whose receiver is there, and the snapshot
  writer has mailboxes to answer to. Every move keeps this, so it holds after
  every run (`Hub.coherent_of_run`).

  A mailbox without a receiver is out of reach of all moves
  (`Hub.frozen_of_run`); this is what makes the time at which a receiver leaves
  the end of what its session gets.
-/

import ShowRelay.Proofs.Hub.History
import ShowRelay.Proofs.Table

namespace ShowRelay

namespace Hub

/-! ## Sessions and their mailboxes -/

/-- Open sessions have mailboxes of their own among the first `count`. -/
structure Registers (sessions : Table SessionId Registration) (count : Nat) : Prop where
  numbered : ∀ {id session}, sessions.get? id = some session → session.mailbox < count
  distinct : ∀ {id other s t}, sessions.get? id = some s → sessions.get? other = some t →
    s.mailbox = t.mailbox → id = other

theorem Registers.mono {sessions fewer : Table SessionId Registration} {count : Nat}
    (h : Registers sessions count)
    (hfewer : ∀ {id session}, fewer.get? id = some session → sessions.get? id = some session) :
    Registers fewer count where
  numbered hs := h.numbered (hfewer hs)
  distinct hs ht := h.distinct (hfewer hs) (hfewer ht)

theorem Registers.erase {sessions : Table SessionId Registration} {count : Nat}
    (h : Registers sessions count) (id : SessionId) : Registers (sessions.erase id) count := by
  refine h.mono fun {other session} hs => ?_
  rw [Table.get?_erase] at hs
  split at hs
  · cases hs
  · exact hs

theorem Registers.foldl_erase {sessions : Table SessionId Registration} {count : Nat}
    (h : Registers sessions count) (ids : List SessionId) :
    Registers (ids.foldl Table.erase sessions) count := by
  refine h.mono fun {other session} hs => ?_
  rw [Table.get?_foldl_erase] at hs
  split at hs
  · cases hs
  · exact hs

/-- A new session gets the next mailbox. -/
theorem Registers.insert {sessions : Table SessionId Registration} {count : Nat}
    (h : Registers sessions count) (id : SessionId) (peer : String) :
    Registers (sessions.insert id ⟨peer, count⟩) (count + 1) := by
  constructor
  · intro other session hs
    rw [Table.get?_insert] at hs
    split at hs
    · cases hs
      exact Nat.lt_succ_self count
    · exact Nat.lt_succ_of_lt (h.numbered hs)
  · intro other another s t hs ht hst
    rw [Table.get?_insert] at hs ht
    split at hs
    · next ho =>
      cases hs
      split at ht
      · next ha => rw [ho, ha]
      · have hlt := h.numbered ht
        simp only at hst
        omega
    · have hlt := h.numbered hs
      split at ht
      · cases ht
        simp only at hst
        omega
      · exact h.distinct hs ht hst

/-! ## Rounds -/

/-- A round fits the sessions and mailboxes that it is about. -/
structure Round.Fits (sessions : Table SessionId Registration) (mailboxes : List Mailbox)
    (round : Round) : Prop where
  -- No session is offered the message twice.
  nodup : round.pending.Nodup
  -- The sessions still to be offered the message are open.
  registered : ∀ id ∈ round.pending, ∃ session, sessions.get? id = some session
  -- The receivers of the sessions remembered are gone.
  gone : ∀ id ∈ round.failed, ∃ session mailbox, sessions.get? id = some session ∧
    mailboxes[session.mailbox]? = some mailbox ∧ mailbox.attended = false
  -- The hub itself gives one answer only.
  answer : ∀ text, round.delivery = .answer text → text = Request.saveFailedTag

theorem Round.Fits.next {sessions : Table SessionId Registration} {mailboxes : List Mailbox}
    {round : Round} (h : round.Fits sessions mailboxes) : round.next.Fits sessions mailboxes where
  nodup := h.nodup.sublist (List.tail_sublist _)
  registered id hid := h.registered id (List.mem_of_mem_tail hid)
  gone := h.gone
  answer := h.answer

/-- What happens to a mailbox whose receiver is there is nothing to the sessions remembered. -/
theorem Round.Fits.set {sessions : Table SessionId Registration} {mailboxes : List Mailbox}
    {round : Round} (h : round.Fits sessions mailboxes) {number : Nat} {mailbox : Mailbox}
    (hat : mailboxes[number]? = some mailbox) (hattended : mailbox.attended = true)
    (changed : Mailbox) : round.Fits sessions (mailboxes.set number changed) where
  nodup := h.nodup
  registered := h.registered
  gone id hid := by
    obtain ⟨session, found, hsession, hfound, hgone⟩ := h.gone id hid
    refine ⟨session, found, hsession, ?_, hgone⟩
    have hne : number ≠ session.mailbox := by
      rintro rfl
      rw [hat] at hfound
      cases hfound
      rw [hattended] at hgone
      cases hgone
    rw [List.getElem?_set_ne hne, hfound]
  answer := h.answer

/-! ## Hubs -/

/-- The invariant of a hub. -/
structure Coherent {σ : Type} (hub : Hub σ) : Prop where
  registers : Registers hub.sessions hub.mailboxes.length
  bounded : ∀ mailbox ∈ hub.mailboxes, mailbox.Bounded
  fits : ∀ round, hub.round = some round → round.Fits hub.sessions hub.mailboxes
  jobs : ∀ job ∈ hub.jobs, job.mailbox < hub.mailboxes.length
  outcome : ∀ outcome, hub.outcome = some outcome → outcome.mailbox < hub.mailboxes.length
  -- The snapshot writer answers with a name.
  named : ∀ outcome, hub.outcome = some outcome → outcome.text ≠ Request.saveFailedTag

theorem bounded_set {mailboxes : List Mailbox} (h : ∀ mailbox ∈ mailboxes, mailbox.Bounded)
    (number : Nat) {changed : Mailbox} (hchanged : changed.Bounded) :
    ∀ mailbox ∈ mailboxes.set number changed, mailbox.Bounded := by
  intro mailbox hmem
  rcases List.mem_or_eq_of_mem_set hmem with hmem | rfl
  · exact h mailbox hmem
  · exact hchanged

section

variable {σ : Type} {hub next : Hub σ}

/-- A change to a mailbox whose receiver is there keeps the invariant. -/
theorem Coherent.set (h : hub.Coherent) {number : Nat} {mailbox changed : Mailbox}
    (hat : hub.mailboxes[number]? = some mailbox) (hattended : mailbox.attended = true)
    (hchanged : changed.Bounded) :
    Coherent { hub with mailboxes := hub.mailboxes.set number changed } where
  registers := by simpa only [List.length_set] using h.registers
  bounded := bounded_set h.bounded number hchanged
  fits round hround := (h.fits round hround).set hat hattended changed
  jobs := by simpa only [List.length_set] using h.jobs
  outcome := by simpa only [List.length_set] using h.outcome
  named := h.named

/-- The next round of a hub keeps the invariant if it fits. -/
theorem Coherent.setRound (h : hub.Coherent) {round : Round}
    (hround : round.Fits hub.sessions hub.mailboxes) :
    Coherent { hub with round := some round } where
  registers := h.registers
  bounded := h.bounded
  fits := by
    intro other hother
    cases hother
    exact hround
  jobs := h.jobs
  outcome := h.outcome
  named := h.named

theorem Coherent.bounded_at (h : hub.Coherent) {number : Nat} {mailbox : Mailbox}
    (hat : hub.mailboxes[number]? = some mailbox) : mailbox.Bounded :=
  h.bounded mailbox (List.mem_of_getElem? hat)

/-- An open session has a mailbox. -/
theorem Coherent.mailboxOf?_isSome (h : hub.Coherent) {id : SessionId} {session : Registration}
    (hsession : hub.sessions.get? id = some session) :
    ∃ mailbox, hub.mailboxOf? id = some (session.mailbox, mailbox) := by
  have hlt := h.registers.numbered hsession
  refine ⟨hub.mailboxes[session.mailbox], ?_⟩
  rw [mailboxOf?_eq_some_iff]
  exact ⟨⟨session, hsession, rfl⟩, List.getElem?_eq_getElem hlt⟩

/-- Who is still to be visited is open, and has a mailbox. -/
theorem Coherent.exists_mailbox (h : hub.Coherent) {round : Round} {id : SessionId}
    {rest : List SessionId} (hround : hub.round = some round)
    (hpending : round.pending = id :: rest) :
    ∃ number mailbox, hub.mailboxOf? id = some (number, mailbox) := by
  obtain ⟨session, hsession⟩ := (h.fits round hround).registered id
    (by rw [hpending]; exact List.mem_cons_self)
  obtain ⟨mailbox, hmailbox⟩ := h.mailboxOf?_isSome hsession
  exact ⟨session.mailbox, mailbox, hmailbox⟩

theorem coherent_start (store : Store) (archive : Archive) (sinks : List σ) :
    (start store archive sinks).Coherent where
  registers := ⟨fun hnone => (by cases hnone), fun hnone => (by cases hnone)⟩
  bounded _ h := by cases h
  fits _ h := by cases h
  jobs _ h := by cases h
  outcome _ h := by cases h
  named _ h := by cases h

variable [Sink σ] {action : Action}

/-- Every move keeps the invariant. -/
theorem coherent_of_move (hmove : Move hub action next) (h : hub.Coherent) : next.Coherent := by
  cases hmove with
  | connect id peer depth log hround =>
    have hlength : (hub.mailboxes ++ [({ depth } : Mailbox)]).length = hub.mailboxes.length + 1 :=
      List.length_append
    refine ⟨?_, ?_, ?_, ?_, ?_, h.named⟩
    · rw [hlength]
      exact h.registers.insert id peer
    · intro mailbox hmem
      rcases List.mem_append.1 hmem with hmem | hmem
      · exact h.bounded mailbox hmem
      · rw [List.mem_singleton.1 hmem]
        exact Mailbox.bounded_new depth
    · intro round hsome
      rw [hround] at hsome
      cases hsome
    · intro job hjob
      rw [hlength]
      exact Nat.lt_succ_of_lt (h.jobs job hjob)
    · intro outcome houtcome
      rw [hlength]
      exact Nat.lt_succ_of_lt (h.outcome outcome houtcome)
  | ignore => exact { h with }
  | update id raw session log hround hopen hraw =>
    -- A round begins, to all but the sender.
    refine { h with fits := ?_ }
    intro round hsome
    cases hsome
    refine ⟨(Table.nodup_keys _).filter _, ?_, ?_, ?_⟩
    · intro other hother
      exact Table.mem_keys_iff.1 (List.mem_filter.1 hother).1
    · intro other hother
      cases hother
    · intro text htext
      cases htext
  | refuse id raw name session fault log hround hopen hraw hname =>
    refine { h with fits := ?_ }
    intro round hsome
    cases hsome
    refine ⟨List.pairwise_singleton _ id, ?_, ?_, ?_⟩
    · intro other hother
      rw [List.mem_singleton.1 hother]
      exact ⟨session, hopen⟩
    · intro other hother
      cases hother
    · intro text htext
      cases htext
      rfl
  | request id raw name session clean log hround hopen hraw hname =>
    refine { h with jobs := ?_ }
    intro job hjob
    rcases List.mem_append.1 hjob with hjob | hjob
    · exact h.jobs job hjob
    · rw [List.mem_singleton.1 hjob]
      exact h.registers.numbered hopen
  | disconnect id log hround =>
    refine { h with registers := h.registers.erase id, fits := ?_ }
    intro round hsome
    rw [hround] at hsome
    cases hsome
  | passOn round raw log hround hpending hdelivery =>
    refine { h with registers := h.registers.foldl_erase round.failed, fits := ?_ }
    intro other hsome
    cases hsome
  | settle round text log hround hpending hdelivery =>
    refine { h with registers := h.registers.foldl_erase round.failed, fits := ?_ }
    intro other hsome
    cases hsome
  | pass round id rest hround hpending hmailbox => exact h.setRound (h.fits round hround).next
  | miss round id rest number mailbox hround hpending hmailbox hattended =>
    obtain ⟨⟨session, hsession, rfl⟩, hat⟩ := mailboxOf?_eq_some_iff.1 hmailbox
    have hfits := (h.fits round hround).next
    refine h.setRound ⟨hfits.nodup, hfits.registered, ?_, hfits.answer⟩
    -- The session remembered now is the one whose receiver was found gone.
    intro other hother
    rcases List.mem_append.1 hother with hother | hother
    · exact hfits.gone other hother
    · rw [List.mem_singleton.1 hother]
      exact ⟨session, mailbox, hsession, hat, hattended⟩
  | deliver _ round id rest number mailbox changed haction hround hpending hmailbox haccepts =>
    have hat := (mailboxOf?_eq_some_iff.1 hmailbox).2
    have hattended := haccepts.attended_before
    have hset := h.set hat hattended (haccepts.bounded (h.bounded_at hat))
    exact hset.setRound ((h.fits round hround).next.set hat hattended changed)
  | wait round log hround hpending =>
    have hfits := h.fits round hround
    have hwaiting : Round.Fits hub.sessions hub.mailboxes { round with waiting := true } :=
      ⟨hfits.nodup, hfits.registered, hfits.gone, hfits.answer⟩
    exact { h.setRound hwaiting with }
  | write replies job jobs houtcome hjobs =>
    have hjob := h.jobs job (by rw [hjobs]; exact List.mem_cons_self)
    refine { h with jobs := ?_, outcome := ?_, named := ?_ }
    · intro other hother
      exact h.jobs other (by rw [hjobs]; exact List.mem_cons_of_mem job hother)
    · intro outcome hsome
      cases hsome
      exact hjob
    · intro outcome hsome
      cases hsome
      exact job.answer_ne _
  | drop outcome houtcome hmailbox =>
    exact { h with
      outcome := fun _ hnone => by cases hnone
      named := fun _ hnone => by cases hnone }
  | reply _ outcome mailbox changed haction houtcome hat haccepts =>
    have hset := h.set hat haccepts.attended_before (haccepts.bounded (h.bounded_at hat))
    exact { hset with
      outcome := fun _ hnone => by cases hnone
      named := fun _ hnone => by cases hnone }
  | take number mailbox changed hat htake =>
    exact h.set hat (Mailbox.attended_of_take? htake)
      (Mailbox.bounded_take? htake (h.bounded_at hat))
  | leave number mailbox hat hattended =>
    have hbounded : mailbox.Bounded := h.bounded_at hat
    exact h.set hat hattended hbounded

theorem Coherent.run (h : hub.Coherent) {actions : List Action}
    (hrun : hub.run actions = some next) : next.Coherent := by
  refine run_induction (motive := fun _ next => next.Coherent) h ?_ hrun
  intro actions hub action next _ h _ hmove
  exact coherent_of_move hmove h

theorem coherent_of_run {store : Store} {archive : Archive} {sinks : List σ}
    {actions : List Action} (hrun : (start store archive sinks).run actions = some hub) :
    hub.Coherent :=
  (coherent_start store archive sinks).run hrun

/-! ## Mailboxes without a receiver -/

/-- No move changes a mailbox whose receiver is gone. -/
theorem frozen_of_move (hmove : Move hub action next) {number : Nat} {mailbox : Mailbox}
    (hat : hub.mailboxes[number]? = some mailbox) (hgone : mailbox.attended = false) :
    next.mailboxes[number]? = some mailbox := by
  -- A move changes only mailboxes whose receiver is there.
  have hother : ∀ {other : Nat} {found changed : Mailbox},
      hub.mailboxes[other]? = some found → found.attended = true →
        (hub.mailboxes.set other changed)[number]? = some mailbox := by
    intro other found changed hfound hattended
    have hne : other ≠ number := by
      rintro rfl
      rw [hat] at hfound
      cases hfound
      rw [hattended] at hgone
      cases hgone
    rw [List.getElem?_set_ne hne, hat]
  cases hmove with
  | connect id peer depth log hround =>
    have hlt := (List.getElem?_eq_some_iff.1 hat).1
    exact (List.getElem?_append_left hlt).trans hat
  | deliver _ round id rest other found changed haction hround hpending hmailbox haccepts =>
    exact hother (mailboxOf?_eq_some_iff.1 hmailbox).2 haccepts.attended_before
  | reply _ outcome found changed haction houtcome hfound haccepts =>
    exact hother hfound haccepts.attended_before
  | take other found changed hfound htake =>
    exact hother hfound (Mailbox.attended_of_take? htake)
  | leave other found hfound hattended => exact hother hfound hattended
  | _ => exact hat

/-- From the time at which its receiver leaves, a mailbox stays as it is. -/
theorem frozen_of_run {actions : List Action} (hrun : hub.run actions = some next) {number : Nat}
    {mailbox : Mailbox} (hat : hub.mailboxes[number]? = some mailbox)
    (hgone : mailbox.attended = false) : next.mailboxes[number]? = some mailbox := by
  refine run_induction (motive := fun _ next => next.mailboxes[number]? = some mailbox) hat ?_ hrun
  intro actions hub action next _ h _ hmove
  exact frozen_of_move hmove h hgone

end

end Hub

end ShowRelay
