/-
  ShowRelay.Proofs.Hub.Move

  What each step of a hub can do, guards included. `Hub.Move` has one case for
  every outcome of a step and shows the hub after it, up to what was noted;
  `Hub.move_of_step` says that there are no others. Properties of runs are
  proved by cases on moves, so that nothing below looks into the steps again.

  A message gets into a mailbox in one of two ways, which `Mailbox.Accepts`
  keeps together: it is put down, or it is handed over where nothing can wait.
-/

import ShowRelay.Hub.Step
import ShowRelay.Proofs.Table

namespace ShowRelay

/-! ## Mailboxes -/

/-- The update that a message passes on. -/
def Delivery.raw? : Delivery → Option String
  | broadcast raw => some raw
  | answer _ => none

namespace Mailbox

/-- A message gets into a mailbox, which it leaves as the last argument. -/
inductive Accepts (m : Mailbox) (d : Delivery) : Mailbox → Prop where
  -- It is put down where there is room.
  | put (hattended : m.attended = true) (hroom : m.hasRoom = true) : Accepts m d (m.put d)
  -- It is handed over to a receiver for whom nothing can wait.
  | handOver (hmeets : m.meets = true) : Accepts m d (m.handOver d)

/-- No more messages wait than can. -/
def Bounded (m : Mailbox) : Prop := m.queued.length ≤ m.depth

theorem bounded_new (depth : Nat) : Bounded { depth } := Nat.zero_le depth

theorem Accepts.attended_before {m n : Mailbox} {d : Delivery} (h : m.Accepts d n) :
    m.attended = true := by
  cases h with
  | put hattended _ => exact hattended
  | handOver hmeets =>
    simp only [meets, Bool.and_eq_true] at hmeets
    exact hmeets.1

theorem Accepts.attended_after {m n : Mailbox} {d : Delivery} (h : m.Accepts d n) :
    n.attended = true := by
  have hm := h.attended_before
  cases h with
  | put _ _ => exact hm
  | handOver _ => exact hm

theorem Accepts.bounded {m n : Mailbox} {d : Delivery} (h : m.Accepts d n) (hm : m.Bounded) :
    n.Bounded := by
  cases h with
  | put _ hroom =>
    simp only [hasRoom, decide_eq_true_eq] at hroom
    simp only [Bounded, Mailbox.put, List.length_append, List.length_singleton]
    omega
  | handOver _ => exact hm

/-- However a message gets in, it comes after all that was there. -/
theorem Accepts.contents {m n : Mailbox} {d : Delivery} (h : m.Accepts d n) (hm : m.Bounded) :
    n.contents = m.contents ++ [d] := by
  cases h with
  | put _ _ => exact contents_put d m
  | handOver hmeets =>
    simp only [meets, Bool.and_eq_true, decide_eq_true_eq] at hmeets
    have hdepth := hmeets.2
    unfold Bounded at hm
    apply contents_handOver
    apply List.eq_nil_of_length_eq_zero
    omega

theorem attended_of_take? {m n : Mailbox} (h : m.take? = some n) : m.attended = true := by
  unfold take? at h
  split at h
  · next hattended _ => exact hattended
  · cases h

theorem attended_take? {m n : Mailbox} (h : m.take? = some n) : n.attended = m.attended := by
  unfold take? at h
  split at h
  · next hattended _ =>
    cases h
    rfl
  · cases h

theorem bounded_take? {m n : Mailbox} (h : m.take? = some n) (hm : m.Bounded) : n.Bounded := by
  unfold take? at h
  split at h
  · next hqueued =>
    cases h
    simp only [Bounded, hqueued, List.length_cons] at hm ⊢
    omega
  · cases h

end Mailbox

/-! ## Destinations -/

/-- A destination after an update was passed on to it. -/
def Sink.given {σ : Type} [Sink σ] (raw : String) (sink : σ) : σ := (Sink.forward raw sink).1

theorem Sink.forwardAll_fst {σ : Type} [Sink σ] (raw : String) (sinks : List σ) :
    (Sink.forwardAll raw sinks).1 = sinks.map (Sink.given raw) := by
  simp only [Sink.forwardAll, List.map_map]
  rfl

/-! ## Answers -/

/-- The text of the answer to a snapshot, by what became of it. -/
def Hub.Job.answer (job : Job) (result : Except SnapshotError String) : String :=
  (if result.isOk then Request.savedTag else Request.saveFailedTag) ++ job.name.text

/-- A name follows the tag, so an answer of the snapshot writer is none of the hub's. -/
theorem Hub.Job.answer_ne (job : Hub.Job) (result : Except SnapshotError String) :
    job.answer result ≠ Request.saveFailedTag := by
  intro h
  rw [Hub.Job.answer] at h
  split at h
  · have hchars := congrArg (fun text => text.toList[4]?) h
    simp [Request.savedTag, Request.saveFailedTag] at hchars
  · have hlength := congrArg String.length h
    have hname : job.name.text.length ≠ 0 := by
      rw [ne_eq, String.length_eq_zero_iff]
      exact job.name.nonempty
    rw [String.length_append] at hlength
    omega

namespace Hub

variable {σ : Type}

/-! ## Moves -/

/-- What the steps of a hub lead to, where `log` is what was noted so far. -/
inductive Move [Sink σ] (hub : Hub σ) : Action → Hub σ → Prop where
  -- A session connects, under a number that may be taken.
  | connect (id : SessionId) (peer : String) (depth : Nat) (log : List LogRecord)
      (hround : hub.round = none) :
      Move hub (.handle (.connect id peer depth)) { hub with
        sessions := hub.sessions.insert id ⟨peer, hub.mailboxes.length⟩
        mailboxes := hub.mailboxes ++ [{ depth }]
        log }
  -- A session that is not open is ignored.
  | ignore (id : SessionId) (raw : String) (log : List LogRecord)
      (hround : hub.round = none) (hclosed : hub.sessions.get? id = none) :
      Move hub (.handle (.message id raw)) { hub with log }
  -- An update is merged and begins a round.
  | update (id : SessionId) (raw : String) (session : Registration) (log : List LogRecord)
      (hround : hub.round = none) (hopen : hub.sessions.get? id = some session)
      (hraw : Request.classify raw = .update raw) :
      Move hub (.handle (.message id raw)) { hub with
        store := hub.store.merge (Delta.decode raw)
        round := some ⟨.broadcast raw, hub.sessions.keys.filter (· ≠ id), false, []⟩
        log }
  -- A snapshot under a name of which nothing is left is refused.
  | refuse (id : SessionId) (raw name : String) (session : Registration)
      (fault : SnapshotError) (log : List LogRecord)
      (hround : hub.round = none) (hopen : hub.sessions.get? id = some session)
      (hraw : Request.classify raw = .save name)
      (hname : SnapshotName.sanitize name = .error fault) :
      Move hub (.handle (.message id raw)) { hub with
        round := some ⟨.answer Request.saveFailedTag, [id], false, []⟩
        log }
  -- Any other snapshot becomes a job.
  | request (id : SessionId) (raw name : String) (session : Registration)
      (clean : SnapshotName) (log : List LogRecord)
      (hround : hub.round = none) (hopen : hub.sessions.get? id = some session)
      (hraw : Request.classify raw = .save name)
      (hname : SnapshotName.sanitize name = .ok clean) :
      Move hub (.handle (.message id raw)) { hub with
        jobs := hub.jobs ++ [⟨clean, Archive.contentsOf hub.store, session.mailbox⟩]
        log }
  -- A session is gone, if it was open.
  | disconnect (id : SessionId) (log : List LogRecord) (hround : hub.round = none) :
      Move hub (.handle (.disconnect id)) { hub with sessions := hub.sessions.erase id, log }
  -- An update was offered to all; it is passed on.
  | passOn (round : Round) (raw : String) (log : List LogRecord)
      (hround : hub.round = some round) (hpending : round.pending = [])
      (hdelivery : round.delivery = .broadcast raw) :
      Move hub .proceed { hub with
        sessions := round.failed.foldl Table.erase hub.sessions
        sinks := hub.sinks.map (Sink.given raw)
        round := none
        log }
  -- An answer was offered.
  | settle (round : Round) (text : String) (log : List LogRecord)
      (hround : hub.round = some round) (hpending : round.pending = [])
      (hdelivery : round.delivery = .answer text) :
      Move hub .proceed { hub with
        sessions := round.failed.foldl Table.erase hub.sessions
        round := none
        log }
  -- A session that has no mailbox is passed over.
  | pass (round : Round) (id : SessionId) (rest : List SessionId)
      (hround : hub.round = some round) (hpending : round.pending = id :: rest)
      (hmailbox : hub.mailboxOf? id = none) :
      Move hub .proceed { hub with round := some round.next }
  -- A session without a receiver is remembered.
  | miss (round : Round) (id : SessionId) (rest : List SessionId) (number : Nat)
      (mailbox : Mailbox) (hround : hub.round = some round)
      (hpending : round.pending = id :: rest)
      (hmailbox : hub.mailboxOf? id = some (number, mailbox))
      (hattended : mailbox.attended = false) :
      Move hub .proceed
        { hub with round := some { round.next with failed := round.failed ++ [id] } }
  -- The session at hand gets the message of the round, in a step of the hub or of its
  -- receiver.
  | deliver (action : Action) (round : Round) (id : SessionId) (rest : List SessionId)
      (number : Nat) (mailbox changed : Mailbox)
      (haction : action = .proceed ∨ action = .meet number)
      (hround : hub.round = some round) (hpending : round.pending = id :: rest)
      (hmailbox : hub.mailboxOf? id = some (number, mailbox))
      (haccepts : mailbox.Accepts round.delivery changed) :
      Move hub action { hub with
        mailboxes := hub.mailboxes.set number changed
        round := some round.next }
  -- The hub begins to wait for room.
  | wait (round : Round) (log : List LogRecord) (hround : hub.round = some round)
      (hpending : round.pending ≠ []) :
      Move hub .proceed { hub with round := some { round with waiting := true }, log }
  -- The snapshot writer writes the first snapshot on its list, or fails to.
  | write (replies : List Saving.Reply) (job : Job) (jobs : List Job)
      (houtcome : hub.outcome = none) (hjobs : hub.jobs = job :: jobs) :
      Move hub (.write replies) { hub with
        archive := (hub.archive.saveWith replies job.name.text job.contents).1
        jobs
        outcome := some ⟨job.mailbox,
          job.answer (hub.archive.saveWith replies job.name.text job.contents).2⟩ }
  -- An answer that nobody can receive is dropped.
  | drop (outcome : Outcome) (houtcome : hub.outcome = some outcome)
      (hmailbox : ∀ mailbox, hub.mailboxes[outcome.mailbox]? = some mailbox →
        mailbox.attended = false) :
      Move hub .answer { hub with outcome := none }
  -- The answer to a snapshot gets into the mailbox that it is for, in a step of the
  -- writer or of the receiver.
  | reply (action : Action) (outcome : Outcome) (mailbox changed : Mailbox)
      (haction : action = .answer ∨ action = .meetAnswer outcome.mailbox)
      (houtcome : hub.outcome = some outcome)
      (hmailbox : hub.mailboxes[outcome.mailbox]? = some mailbox)
      (haccepts : mailbox.Accepts (.answer outcome.text) changed) :
      Move hub action { hub with
        mailboxes := hub.mailboxes.set outcome.mailbox changed
        outcome := none }
  -- A receiver takes a message.
  | take (number : Nat) (mailbox changed : Mailbox)
      (hmailbox : hub.mailboxes[number]? = some mailbox) (htake : mailbox.take? = some changed) :
      Move hub (.take number) { hub with mailboxes := hub.mailboxes.set number changed }
  -- A receiver leaves.
  | leave (number : Nat) (mailbox : Mailbox) (hmailbox : hub.mailboxes[number]? = some mailbox)
      (hattended : mailbox.attended = true) :
      Move hub (.leave number) { hub with mailboxes := hub.mailboxes.set number mailbox.leave }

/-! ## Every step is a move -/

/-- Dropping the sessions of a round changes the sessions only, and is noted. -/
theorem foldl_evict (ids : List SessionId) (hub : Hub σ) :
    ∃ log, ids.foldl evict hub =
      { hub with sessions := ids.foldl Table.erase hub.sessions, log } := by
  induction ids generalizing hub with
  | nil => exact ⟨hub.log, rfl⟩
  | cons id ids ih =>
    have hevict : ∃ log, hub.evict id = { hub with sessions := hub.sessions.erase id, log } := by
      unfold evict
      split
      · next hclosed => exact ⟨hub.log, by rw [Table.erase_eq_self hclosed]⟩
      · exact ⟨_, rfl⟩
    obtain ⟨log, hlog⟩ := hevict
    obtain ⟨log', hlog'⟩ := ih (hub.evict id)
    refine ⟨log', ?_⟩
    rw [List.foldl_cons, hlog', hlog, List.foldl_cons]

/-- A change at a number that is taken is a replacement. -/
theorem modify_eq_set_of_getElem? {mailboxes : List Mailbox} {number : Nat} {mailbox : Mailbox}
    (h : mailboxes[number]? = some mailbox) (change : Mailbox → Mailbox) :
    mailboxes.modify number change = mailboxes.set number (change mailbox) := by
  have hlt : number < mailboxes.length := (List.getElem?_eq_some_iff.1 h).1
  apply List.ext_getElem?
  intro k
  rw [List.getElem?_modify, List.getElem?_set]
  by_cases hk : number = k
  · subst hk
    rw [h, if_pos rfl, if_pos hlt, Option.map_eq_map, Option.map_some, if_pos rfl]
  · simp [hk]

/-- The mailbox of an open session is the one that its registration names. -/
theorem mailboxOf?_eq_some_iff {hub : Hub σ} {id : SessionId} {number : Nat} {mailbox : Mailbox} :
    hub.mailboxOf? id = some (number, mailbox) ↔
      (∃ session, hub.sessions.get? id = some session ∧ session.mailbox = number) ∧
        hub.mailboxes[number]? = some mailbox := by
  unfold mailboxOf?
  cases hsession : hub.sessions.get? id with
  | none => simp
  | some session =>
    cases hmailbox : hub.mailboxes[session.mailbox]? with
    | none =>
      simp only [hmailbox, Option.bind_eq_bind, Option.bind_some, Option.bind_none]
      constructor
      · intro h
        cases h
      · rintro ⟨⟨_, ⟨⟩, rfl⟩, h⟩
        rw [hmailbox] at h
        cases h
    | some found =>
      simp only [hmailbox, Option.bind_eq_bind, Option.bind_some, Option.pure_def,
        Option.some.injEq, Prod.mk.injEq]
      constructor
      · rintro ⟨rfl, rfl⟩
        exact ⟨⟨session, rfl, rfl⟩, hmailbox⟩
      · rintro ⟨⟨_, rfl, rfl⟩, h⟩
        rw [hmailbox] at h
        exact ⟨rfl, Option.some.inj h⟩

section

variable [Sink σ] {hub next : Hub σ}

theorem move_handle (event : Event) (hround : hub.round = none) :
    Move hub (.handle event) (hub.handle event) := by
  cases event with
  | connect id peer depth =>
    simp only [handle, connect]
    split
    · exact .connect id peer depth _ hround
    · exact .connect id peer depth _ hround
  | disconnect id =>
    simp only [handle, disconnect]
    split
    · next hclosed =>
      have hmove := Move.disconnect id hub.log hround
      rwa [Table.erase_eq_self hclosed] at hmove
    · exact .disconnect id _ hround
  | message id raw =>
    simp only [handle, message]
    cases hopen : hub.sessions.get? id with
    | none => exact .ignore id raw _ hround hopen
    | some session =>
      cases hraw : Request.classify raw with
      | save name =>
        simp only [save]
        split
        · next fault hname => exact .refuse id raw name session fault _ hround hopen hraw hname
        · next clean hname => exact .request id raw name session clean _ hround hopen hraw hname
      | update text =>
        have htext := Request.eq_of_classify_eq_update hraw
        subst htext
        exact .update id text session _ hround hopen hraw

theorem move_conclude {round : Round} (hround : hub.round = some round)
    (hpending : round.pending = []) : Move hub .proceed (hub.conclude round) := by
  obtain ⟨log, hlog⟩ := foldl_evict round.failed { hub with round := none }
  unfold conclude
  rw [hlog]
  split
  · next raw hdelivery =>
    simp only [forward, Sink.forwardAll_fst]
    exact .passOn round raw _ hround hpending hdelivery
  · next text hdelivery => exact .settle round text _ hround hpending hdelivery

theorem move_proceed (h : hub.proceed = some next) : Move hub .proceed next := by
  unfold proceed at h
  obtain ⟨round, hround, h⟩ := Option.bind_eq_some_iff.1 h
  split at h
  · next hpending =>
    cases h
    exact move_conclude hround hpending
  · next id rest hpending =>
    split at h
    · next hmailbox =>
      cases h
      exact .pass round id rest hround hpending hmailbox
    · next number mailbox hmailbox =>
      split at h
      · next hattended =>
        cases h
        exact .miss round id rest number mailbox hround hpending hmailbox (by simpa using hattended)
      · next hattended =>
        split at h
        · next hroom =>
          cases h
          have hat := (mailboxOf?_eq_some_iff.1 hmailbox).2
          simp only [changeMailbox, modify_eq_set_of_getElem? hat]
          exact .deliver .proceed round id rest number mailbox _ (.inl rfl) hround hpending
            hmailbox (.put (by simpa using hattended) hroom)
        · split at h
          · cases h
          · cases h
            exact .wait round _ hround (by rw [hpending]; exact List.cons_ne_nil _ _)

theorem move_meet {number : Nat} (h : hub.meet number = some next) :
    Move hub (.meet number) next := by
  unfold meet at h
  obtain ⟨round, hround, h⟩ := Option.bind_eq_some_iff.1 h
  obtain ⟨id, hid, h⟩ := Option.bind_eq_some_iff.1 h
  obtain ⟨⟨held, mailbox⟩, hmailbox, h⟩ := Option.bind_eq_some_iff.1 h
  by_cases hheld : held = number ∧ mailbox.meets = true
  · simp only [if_pos hheld, Option.pure_def, Option.some.injEq] at h
    subst h
    obtain ⟨rfl, hmeets⟩ := hheld
    obtain ⟨rest, hpending⟩ := List.head?_eq_some_iff.1 hid
    have hat := (mailboxOf?_eq_some_iff.1 hmailbox).2
    simp only [changeMailbox, modify_eq_set_of_getElem? hat]
    exact .deliver (.meet held) round id rest held mailbox _ (.inr rfl) hround hpending
      hmailbox (.handOver hmeets)
  · simp only [if_neg hheld] at h
    cases h

theorem move_write {replies : List Saving.Reply} (h : hub.write replies = some next) :
    Move hub (.write replies) next := by
  unfold write at h
  split at h
  · next job jobs houtcome hjobs =>
    have hmove : Move hub (.write replies) _ := .write replies job jobs houtcome hjobs
    generalize hub.archive.saveWith replies job.name.text job.contents = saved at h hmove
    obtain ⟨archive, result⟩ := saved
    cases h
    cases result with
    | ok path => exact hmove
    | error fault => exact hmove
  · cases h

theorem move_answer (h : hub.answer = some next) : Move hub .answer next := by
  unfold answer at h
  obtain ⟨outcome, houtcome, h⟩ := Option.bind_eq_some_iff.1 h
  dsimp only at h
  split at h
  · next hnone =>
    cases h
    refine .drop outcome houtcome fun mailbox hmailbox => ?_
    rw [hnone] at hmailbox
    cases hmailbox
  · next mailbox hat =>
    split at h
    · next hattended =>
      cases h
      refine .drop outcome houtcome fun other hother => ?_
      rw [hat] at hother
      cases hother
      simpa using hattended
    · next hattended =>
      split at h
      · next hroom =>
        cases h
        simp only [changeMailbox, modify_eq_set_of_getElem? hat]
        exact .reply .answer outcome mailbox _ (.inl rfl) houtcome hat
          (.put (by simpa using hattended) hroom)
      · cases h

theorem move_meetAnswer {number : Nat} (h : hub.meetAnswer number = some next) :
    Move hub (.meetAnswer number) next := by
  unfold meetAnswer at h
  obtain ⟨outcome, houtcome, h⟩ := Option.bind_eq_some_iff.1 h
  obtain ⟨mailbox, hat, h⟩ := Option.bind_eq_some_iff.1 h
  by_cases hheld : outcome.mailbox = number ∧ mailbox.meets = true
  · simp only [if_pos hheld, Option.pure_def, Option.some.injEq] at h
    subst h
    obtain ⟨rfl, hmeets⟩ := hheld
    simp only [changeMailbox, modify_eq_set_of_getElem? hat]
    exact .reply (.meetAnswer outcome.mailbox) outcome mailbox _ (.inr rfl) houtcome hat
      (.handOver hmeets)
  · simp only [if_neg hheld] at h
    cases h

/-- A step that can be taken is one of the moves. -/
theorem move_of_step {action : Action} (h : hub.step action = some next) :
    Move hub action next := by
  cases action with
  | handle event =>
    simp only [step] at h
    split at h
    · next hround =>
      cases h
      exact move_handle event (Option.isNone_iff_eq_none.1 hround)
    · cases h
  | proceed => exact move_proceed h
  | write replies => exact move_write h
  | answer => exact move_answer h
  | take number =>
    simp only [step, take] at h
    obtain ⟨mailbox, hat, h⟩ := Option.bind_eq_some_iff.1 h
    obtain ⟨changed, htake, h⟩ := Option.bind_eq_some_iff.1 h
    cases h
    exact .take number mailbox changed hat htake
  | meet number => exact move_meet h
  | meetAnswer number => exact move_meetAnswer h
  | leave number =>
    simp only [step, leave] at h
    obtain ⟨mailbox, hat, h⟩ := Option.bind_eq_some_iff.1 h
    split at h
    · next hattended =>
      cases h
      simp only [changeMailbox, modify_eq_set_of_getElem? hat]
      exact .leave number mailbox hat hattended
    · cases h

end

end Hub

end ShowRelay
