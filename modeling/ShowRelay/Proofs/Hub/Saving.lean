/-
  ShowRelay.Proofs.Hub.Saving

  Snapshots, from the request to the answer. The hub, the snapshot writer and the
  receivers take their steps in any order, but the jobs that were asked for are
  attempted one after the other as they were asked for (`Hub.Recorded`), so that
  the archive is what the same jobs make of it without anything in between, and
  every attempt has one answer. The answer goes to the mailbox of the
  registration that asked (`Hub.answered_of_run`).

  The writer never gets stuck for good: if receivers take what waits for them,
  it comes to the end of its list (`Hub.exists_finish`).
-/

import ShowRelay.Proofs.Hub.Broadcast
import ShowRelay.Proofs.Hub.Merging

namespace ShowRelay

/-! ## Jobs written one after the other -/

/-- A job that the writer has attempted, with the replies that its requests got. -/
structure Hub.Attempt where
  job : Hub.Job
  replies : List Saving.Reply
  deriving DecidableEq

namespace Archive

/-- What an attempt makes of the archive, and how it ends. -/
def attempt (archive : Archive) (attempt : Hub.Attempt) : Archive × Except SnapshotError String :=
  archive.saveWith attempt.replies attempt.job.name.text attempt.job.contents

/-- The archive after some attempts, with nothing in between. -/
def saveAll (archive : Archive) (attempts : List Hub.Attempt) : Archive :=
  attempts.foldl (fun archive attempt => (archive.attempt attempt).1) archive

/-- The answers to some attempts, with nothing in between. -/
def outcomes (archive : Archive) : List Hub.Attempt → List Hub.Outcome
  | [] => []
  | attempt :: attempts =>
    ⟨attempt.job.mailbox, attempt.job.answer (archive.attempt attempt).2⟩ ::
      (archive.attempt attempt).1.outcomes attempts

theorem saveAll_concat (archive : Archive) (attempts : List Hub.Attempt) (attempt : Hub.Attempt) :
    archive.saveAll (attempts ++ [attempt]) = ((archive.saveAll attempts).attempt attempt).1 := by
  rw [saveAll, List.foldl_append]
  rfl

theorem outcomes_concat (archive : Archive) (attempts : List Hub.Attempt)
    (attempt : Hub.Attempt) :
    archive.outcomes (attempts ++ [attempt]) = archive.outcomes attempts ++
      [⟨attempt.job.mailbox,
        attempt.job.answer ((archive.saveAll attempts).attempt attempt).2⟩] := by
  induction attempts generalizing archive with
  | nil => rfl
  | cons first attempts ih =>
    rw [List.cons_append, outcomes, ih]
    rfl

end Archive

/-! ## Answers in mailboxes -/

/-- The text of an answer of the snapshot writer. -/
def Delivery.answer? : Delivery → Option String
  | broadcast _ => none
  | answer text => if text = Request.saveFailedTag then none else some text

/-- The text of a refusal, which the hub itself gives. -/
def Delivery.refusal? : Delivery → Option String
  | broadcast _ => none
  | answer text => if text = Request.saveFailedTag then some text else none

/-- The answers of the snapshot writer that came into a mailbox, oldest first. -/
def Mailbox.answers (m : Mailbox) : List String := m.contents.filterMap Delivery.answer?

/-- The refusals that came into a mailbox, oldest first. -/
def Mailbox.refusals (m : Mailbox) : List String := m.contents.filterMap Delivery.refusal?

theorem Mailbox.refusals_eq_offered (m : Mailbox) :
    m.refusals = m.offered.filterMap Delivery.refusal? := by
  rw [refusals, offered, List.filterMap_filter]
  congr 1
  funext d
  cases d with
  | broadcast raw => rfl
  | answer text =>
    simp only [Delivery.refusal?, Delivery.ofRound, decide_eq_true_eq]
    split <;> rfl

theorem Mailbox.Accepts.answers {m n : Mailbox} {d : Delivery} (h : m.Accepts d n)
    (hm : m.Bounded) : n.answers = m.answers ++ d.answer?.toList := by
  rw [Mailbox.answers, h.contents hm, List.filterMap_append, Mailbox.answers]
  cases hd : d.answer? with
  | none => simp [hd]
  | some text => simp [hd]

namespace Hub

variable {σ : Type}

/-! ## What is seen of snapshots -/

/-- The job that a step asks for: an open session gives a name of which something is left.
    Its contents are those of the store at this moment. -/
def jobIn (hub : Hub σ) : Action → List Job
  | .handle (.message id raw) =>
    match hub.sessions.get? id, Request.classify raw with
    | some session, .save name =>
      match SnapshotName.sanitize name with
      | .ok clean => [⟨clean, hub.store.text ++ "\n", session.mailbox⟩]
      | .error _ => []
    | _, _ => []
  | _ => []

/-- The refusal that a step owes to a mailbox: its session gives a name of which nothing is
    left. -/
def refusalIn (number : Nat) (hub : Hub σ) : Action → List String
  | .handle (.message id raw) =>
    match hub.sessions.get? id, Request.classify raw with
    | some session, .save name =>
      if session.mailbox = number ∧ (SnapshotName.sanitize name).isOk = false then
        [Request.saveFailedTag]
      else []
    | _, _ => []
  | _ => []

/-- The attempt that a step makes. -/
def attemptIn (hub : Hub σ) : Action → List Attempt
  | .write replies => hub.jobs.head?.toList.map fun job => ⟨job, replies⟩
  | _ => []

/-- The answer that a step gives, whether or not there is someone to receive it. -/
def answerIn (hub : Hub σ) : Action → List Outcome
  | .answer => hub.outcome.toList
  | .meetAnswer _ => hub.outcome.toList
  | _ => []

/-- The texts of the answers that are for a mailbox. -/
def textsFor (number : Nat) (outcomes : List Outcome) : List String :=
  (outcomes.filter fun outcome => outcome.mailbox = number).map Outcome.text

/-- Whether a step asks for a snapshot, under whatever name. -/
def Action.asks : Action → Bool
  | .handle (.message _ raw) => (Request.classify raw matches .save _)
  | _ => false

/-- Whether a step is one of the snapshot writer, or a receiver takes something. -/
def Action.ofWriter : Action → Bool
  | .write _ => true
  | .answer => true
  | .take _ => true
  | .meetAnswer _ => true
  | _ => false

/-- Whether a step gives an answer of the snapshot writer, or a receiver makes room for one. -/
def Action.gives : Action → Bool
  | .answer => true
  | .take _ => true
  | .meetAnswer _ => true
  | _ => false

theorem ofWriter_of_gives {action : Action} (h : action.gives = true) : action.ofWriter = true := by
  cases action with
  | answer => rfl
  | take number => rfl
  | meetAnswer number => rfl
  | _ => cases h

theorem attemptIn_of_gives {action : Action} (h : action.gives = true) (hub : Hub σ) :
    hub.attemptIn action = [] := by
  cases action with
  | write replies => cases h
  | _ => rfl

variable {hub next : Hub σ} {number : Nat}

theorem jobIn_of_closed {id : SessionId} (raw : String) (h : hub.sessions.get? id = none) :
    hub.jobIn (.handle (.message id raw)) = [] := by
  simp only [jobIn, h]

theorem jobIn_of_update {id : SessionId} {raw text : String}
    (h : Request.classify raw = .update text) : hub.jobIn (.handle (.message id raw)) = [] := by
  simp only [jobIn, h]
  split
  · next hraw => cases hraw
  · rfl

/-- The refusal that the round at hand has still to offer to a mailbox. -/
def refusalDue (hub : Hub σ) (number : Nat) : List String :=
  (hub.dueAt number).filterMap Delivery.refusal?

/-- The rest of what rounds owe to a mailbox are updates. -/
theorem filterMap_offersIn (number : Nat) (hub : Hub σ) (action : Action) :
    (hub.offersIn number action).filterMap Delivery.refusal? = hub.refusalIn number action := by
  cases action with
  | handle event =>
    cases event with
    | message id raw =>
      simp only [offersIn, refusalIn]
      cases hub.sessions.get? id with
      | none => rfl
      | some session =>
        cases Request.classify raw with
        | save name =>
          simp only
          split
          · rfl
          · rfl
        | update text =>
          simp only
          split
          · rfl
          · rfl
    | connect id peer depth => rfl
    | disconnect id => rfl
  | _ => rfl

theorem classify_of_offersIn {raw : String} {action : Action}
    (h : .broadcast raw ∈ hub.offersIn number action) : Request.classify raw = .update raw := by
  cases action with
  | handle event =>
    cases event with
    | message id text =>
      simp only [offersIn] at h
      split at h
      · cases h
      · next hraw =>
        split at h
        · cases List.mem_singleton.1 h
          have heq := Request.eq_of_classify_eq_update hraw
          exact heq ▸ hraw
        · cases h
      · split at h
        · cases List.mem_singleton.1 h
        · cases h
    | connect id peer depth => cases h
    | disconnect id => cases h
  | _ => cases h

/-! ## Requests, attempts and answers in order -/

/-- The jobs that were asked for, the attempts and the answers given, in an archive that began
    as `archive`. -/
structure Recorded (archive : Archive) (hub : Hub σ) (asked : List Job) (tried : List Attempt)
    (given : List Outcome) : Prop where
  -- What was asked for was attempted or is on the list.
  order : tried.map Attempt.job ++ hub.jobs = asked
  -- The attempts have made the archive what it is.
  written : hub.archive = archive.saveAll tried
  -- Every attempt was answered, but for the answer about to be given.
  answered : given ++ hub.outcome.toList = archive.outcomes tried

variable {archive : Archive} {asked : List Job} {tried : List Attempt} {given : List Outcome}

/-- Nothing was done that has to do with snapshots. -/
theorem Recorded.keep (h : Recorded archive hub asked tried given)
    (hjobs : next.jobs = hub.jobs) (harchive : next.archive = hub.archive)
    (houtcome : next.outcome = hub.outcome) :
    Recorded archive next (asked ++ []) (tried ++ []) (given ++ []) := by
  rw [List.append_nil, List.append_nil, List.append_nil]
  refine ⟨?_, ?_, ?_⟩
  · rw [hjobs, h.order]
  · rw [harchive, h.written]
  · rw [houtcome, h.answered]

/-- One more job was asked for. -/
theorem Recorded.ask (h : Recorded archive hub asked tried given) {job : Job}
    (hjobs : next.jobs = hub.jobs ++ [job]) (harchive : next.archive = hub.archive)
    (houtcome : next.outcome = hub.outcome) :
    Recorded archive next (asked ++ [job]) (tried ++ []) (given ++ []) := by
  rw [List.append_nil, List.append_nil]
  refine ⟨?_, ?_, ?_⟩
  · rw [hjobs, ← List.append_assoc, h.order]
  · rw [harchive, h.written]
  · rw [houtcome, h.answered]

/-- The answer about to be given was given. -/
theorem Recorded.give (h : Recorded archive hub asked tried given) {outcome : Outcome}
    (hgiven : hub.outcome = some outcome) (hjobs : next.jobs = hub.jobs)
    (harchive : next.archive = hub.archive) (houtcome : next.outcome = none) :
    Recorded archive next (asked ++ []) (tried ++ []) (given ++ [outcome]) := by
  have hanswered := h.answered
  rw [hgiven, Option.toList_some] at hanswered
  rw [List.append_nil, List.append_nil]
  refine ⟨?_, ?_, ?_⟩
  · rw [hjobs, h.order]
  · rw [harchive, h.written]
  · rw [houtcome, Option.toList_none, List.append_nil, hanswered]

section

variable [Sink σ] {action : Action}

theorem recorded_of_move (hmove : Move hub action next)
    (h : Recorded archive hub asked tried given) :
    Recorded archive next (asked ++ hub.jobIn action) (tried ++ hub.attemptIn action)
      (given ++ hub.answerIn action) := by
  cases hmove with
  | connect => exact h.keep rfl rfl rfl
  | ignore id raw log hround hclosed =>
    rw [jobIn_of_closed raw hclosed]
    exact h.keep rfl rfl rfl
  | update id raw session log hround hopen hraw =>
    rw [jobIn_of_update hraw]
    exact h.keep rfl rfl rfl
  | refuse id raw name session fault log hround hopen hraw hname =>
    have hnone : hub.jobIn (.handle (.message id raw)) = [] := by
      simp only [jobIn, hopen, hraw, hname]
    rw [hnone]
    exact h.keep rfl rfl rfl
  | request id raw name session clean log hround hopen hraw hname =>
    have hjob : hub.jobIn (.handle (.message id raw)) =
        [⟨clean, Archive.contentsOf hub.store, session.mailbox⟩] := by
      simp only [jobIn, hopen, hraw, hname]
      rfl
    rw [hjob]
    exact h.ask rfl rfl rfl
  | disconnect => exact h.keep rfl rfl rfl
  | passOn => exact h.keep rfl rfl rfl
  | settle => exact h.keep rfl rfl rfl
  | pass => exact h.keep rfl rfl rfl
  | miss => exact h.keep rfl rfl rfl
  | deliver _ round id rest held mailbox changed haction =>
    rcases haction with rfl | rfl
    · exact h.keep rfl rfl rfl
    · exact h.keep rfl rfl rfl
  | wait => exact h.keep rfl rfl rfl
  | write replies job jobs houtcome hjobs =>
    -- No answer is about to be given, so that the one to this attempt is the next.
    have hanswered := h.answered
    rw [houtcome, Option.toList_none, List.append_nil] at hanswered
    have hattempt : hub.attemptIn (.write replies) = [⟨job, replies⟩] := by
      rw [attemptIn, hjobs]
      rfl
    simp only [hattempt, jobIn, answerIn, List.append_nil]
    refine ⟨?_, ?_, ?_⟩
    · rw [← h.order, hjobs, List.map_append, List.append_assoc]
      rfl
    · rw [Archive.saveAll_concat, ← h.written]
      rfl
    · rw [Archive.outcomes_concat, ← hanswered, ← h.written]
      rfl
  | drop outcome houtcome hmailbox =>
    have hgiven : hub.answerIn .answer = [outcome] := by
      rw [answerIn, houtcome]
      rfl
    rw [hgiven]
    exact h.give houtcome rfl rfl rfl
  | reply _ outcome mailbox changed haction houtcome hat haccepts =>
    rcases haction with rfl | rfl
    · have hgiven : hub.answerIn .answer = [outcome] := by
        rw [answerIn, houtcome]
        rfl
      rw [hgiven]
      exact h.give houtcome rfl rfl rfl
    · have hgiven : hub.answerIn (.meetAnswer outcome.mailbox) = [outcome] := by
        rw [answerIn, houtcome]
        rfl
      rw [hgiven]
      exact h.give houtcome rfl rfl rfl
  | take => exact h.keep rfl rfl rfl
  | leave => exact h.keep rfl rfl rfl

/-- The jobs that a run asks for. -/
def requests (hub : Hub σ) (actions : List Action) : List Job := hub.history jobIn actions

/-- The attempts that a run makes. -/
def attempts (hub : Hub σ) (actions : List Action) : List Attempt :=
  hub.history attemptIn actions

/-- The answers that a run gives. -/
def answers (hub : Hub σ) (actions : List Action) : List Outcome := hub.history answerIn actions

theorem recorded_of_run {store : Store} {sinks : List σ} {actions : List Action}
    (hrun : (start store archive sinks).run actions = some hub) :
    Recorded archive hub ((start store archive sinks).requests actions)
      ((start store archive sinks).attempts actions)
      ((start store archive sinks).answers actions) := by
  refine run_induction (motive := fun actions hub =>
    Recorded archive hub ((start store archive sinks).requests actions)
      ((start store archive sinks).attempts actions)
      ((start store archive sinks).answers actions)) ?_ ?_ hrun
  · exact ⟨rfl, rfl, rfl⟩
  · intro actions hub action next hactions h _ hmove
    rw [Hub.requests, Hub.attempts, Hub.answers, history_concat _ action hactions,
      history_concat _ action hactions, history_concat _ action hactions]
    exact recorded_of_move hmove h

/-! ## Answers and refusals in mailboxes -/

theorem textsFor_append (number : Nat) (first second : List Outcome) :
    textsFor number (first ++ second) = textsFor number first ++ textsFor number second := by
  rw [textsFor, List.filter_append, List.map_append]
  rfl

theorem textsFor_self (outcome : Outcome) :
    textsFor outcome.mailbox [outcome] = [outcome.text] := by
  simp [textsFor]

theorem textsFor_other {outcome : Outcome} (h : outcome.mailbox ≠ number) :
    textsFor number [outcome] = [] := by
  simp [textsFor, h]

/-- What the writer says comes into the mailbox that it is for, as long as there is a
    receiver. -/
theorem answered_of_move (hmove : Move hub action next) (hc : hub.Coherent) {owed : List String}
    (h : Account Mailbox.answers hub number [] owed) :
    Account Mailbox.answers next number [] (owed ++ textsFor number (hub.answerIn action)) := by
  cases hmove with
  | connect => exact h.connect rfl rfl
  | deliver _ round id rest held found changed haction hround hpending hmailbox haccepts =>
    have hnone : hub.answerIn action = [] := by
      rcases haction with rfl | rfl
      · rfl
      · rfl
    have hfound := (mailboxOf?_eq_some_iff.1 hmailbox).2
    -- The one answer that rounds give is a refusal, and has no name.
    have hdelivery : round.delivery.answer? = none := by
      cases hdelivery : round.delivery with
      | broadcast raw => rfl
      | answer text =>
        rw [(hc.fits round hround).answer text hdelivery]
        rfl
    rw [hnone]
    refine h.set hfound haccepts.attended_before (fun _ => ?_) rfl
    rw [haccepts.answers (hc.bounded_at hfound), hdelivery]
    exact List.append_nil _
  | drop outcome houtcome hmailbox =>
    have hgiven : hub.answerIn .answer = [outcome] := by
      rw [answerIn, houtcome]
      rfl
    rw [hgiven]
    by_cases hn : outcome.mailbox = number
    · subst hn
      refine h.miss (hc.outcome outcome houtcome) hmailbox ?_
      rfl
    · rw [textsFor_other hn]
      exact h.keep rfl
  | reply _ outcome found changed haction houtcome hat haccepts =>
    have hgiven : hub.answerIn action = [outcome] := by
      rcases haction with rfl | rfl
      · rw [answerIn, houtcome]
        rfl
      · rw [answerIn, houtcome]
        rfl
    rw [hgiven]
    by_cases hn : outcome.mailbox = number
    · subst hn
      have hsum := h.sum found hat haccepts.attended_before
      have htext : Delivery.answer? (.answer outcome.text) = some outcome.text :=
        if_neg (hc.named outcome houtcome)
      refine Account.receive hat rfl ?_
      rw [haccepts.answers (hc.bounded_at hat), htext, textsFor_self, ← hsum, List.append_nil,
        List.append_nil, Option.toList_some]
    · rw [textsFor_other hn]
      exact h.set hat haccepts.attended_before (fun hsame => absurd hsame hn) rfl
  | take held found changed hfound htake =>
    refine h.set hfound (Mailbox.attended_of_take? htake) (fun _ => ?_) rfl
    rw [Mailbox.answers, Mailbox.contents_take? htake, Mailbox.answers]
  | leave held found hfound hattended =>
    have hsame : found.leave.answers = found.answers := rfl
    exact h.set hfound hattended (fun _ => hsame) rfl
  | _ => exact h.keep rfl

theorem answered_of_run {store : Store} {sinks : List σ} {actions : List Action}
    (hrun : (start store archive sinks).run actions = some hub) (number : Nat) :
    Account Mailbox.answers hub number []
      (textsFor number ((start store archive sinks).answers actions)) := by
  refine run_induction (motive := fun actions hub => Account Mailbox.answers hub number []
    (textsFor number ((start store archive sinks).answers actions))) ?_ ?_ hrun
  · exact Account.start store archive sinks
  · intro actions hub action next hactions h _ hmove
    rw [Hub.answers, history_concat _ action hactions, textsFor_append]
    exact answered_of_move hmove (coherent_of_run hactions) h

/-- The refusals that a run owes to a mailbox. -/
def refusals (number : Nat) (hub : Hub σ) (actions : List Action) : List String :=
  hub.history (refusalIn number) actions

theorem refused_of_run {store : Store} {sinks : List σ} {actions : List Action}
    (hrun : (start store archive sinks).run actions = some hub) (number : Nat) :
    Account Mailbox.refusals hub number (hub.refusalDue number)
      ((start store archive sinks).refusals number actions) := by
  have hbalanced := balanced_of_run hrun number
  have howed : ((start store archive sinks).history (offersIn number) actions).filterMap
      Delivery.refusal? = (start store archive sinks).refusals number actions := by
    rw [filterMap_history, Hub.refusals]
    congr 1
    funext hub action
    exact filterMap_offersIn number hub action
  rw [← howed]
  refine ⟨?_, ?_, ?_⟩
  · intro hle
    rw [hbalanced.unborn hle]
    rfl
  · intro mailbox hat
    rw [mailbox.refusals_eq_offered]
    exact (hbalanced.sent mailbox hat).filterMap _
  · intro mailbox hat hattended
    rw [mailbox.refusals_eq_offered, refusalDue, ← List.filterMap_append,
      hbalanced.sum mailbox hat hattended]

/-! ## Requests are kept apart from updates -/

/-- Only updates come into mailboxes as such. -/
theorem classify_of_broadcast {store : Store} {sinks : List σ} {actions : List Action}
    (hrun : (start store archive sinks).run actions = some hub) {mailbox : Mailbox}
    (hmem : mailbox ∈ hub.mailboxes) {raw : String} (hraw : raw ∈ mailbox.broadcasts) :
    Request.classify raw = .update raw := by
  obtain ⟨number, hat⟩ := List.mem_iff_getElem?.1 hmem
  rw [mailbox.broadcasts_eq_offered, List.mem_filterMap] at hraw
  obtain ⟨delivery, hdelivery, hsome⟩ := hraw
  have howed := ((balanced_of_run hrun number).sent mailbox hat).subset hdelivery
  obtain ⟨middle, action, _, hoffer⟩ := exists_of_mem_history howed
  cases delivery with
  | broadcast text =>
    cases hsome
    exact classify_of_offersIn hoffer
  | answer text => cases hsome

/-! ## The writer comes to an end -/

/-- The answer can be given where nobody is there to receive it, and where there is room. -/
theorem exists_answer {outcome : Outcome} {mailbox : Mailbox}
    (houtcome : hub.outcome = some outcome)
    (hat : hub.mailboxes[outcome.mailbox]? = some mailbox)
    (hready : mailbox.attended = false ∨ mailbox.hasRoom = true) :
    ∃ last, hub.step .answer = some last ∧ last.outcome = none ∧ last.jobs = hub.jobs := by
  simp only [step, answer, houtcome, Option.bind_eq_bind, Option.bind_some, hat]
  by_cases hattended : mailbox.attended = true
  · have hroom : mailbox.hasRoom = true := by
      rcases hready with hgone | hroom
      · rw [hattended] at hgone
        cases hgone
      · exact hroom
    simp only [hattended, hroom]
    exact ⟨_, rfl, rfl, rfl⟩
  · simp only [hattended]
    exact ⟨_, rfl, rfl, rfl⟩

/-- A receiver for whom nothing can wait can take the answer itself. -/
theorem exists_meetAnswer {outcome : Outcome} {mailbox : Mailbox}
    (houtcome : hub.outcome = some outcome)
    (hat : hub.mailboxes[outcome.mailbox]? = some mailbox) (hmeets : mailbox.meets = true) :
    ∃ last, hub.step (.meetAnswer outcome.mailbox) = some last ∧ last.outcome = none ∧
      last.jobs = hub.jobs := by
  simp only [step, meetAnswer, houtcome, Option.bind_eq_bind, Option.bind_some, hat, hmeets,
    and_self, if_true]
  exact ⟨_, rfl, rfl, rfl⟩

/-- Where the queue is full its receiver can take a message, and then there is room. -/
theorem exists_take {mailbox : Mailbox} (hat : hub.mailboxes[number]? = some mailbox)
    (hbounded : mailbox.Bounded) (hattended : mailbox.attended = true)
    (hwaiting : mailbox.queued ≠ []) :
    ∃ last changed, hub.step (.take number) = some last ∧
      last.mailboxes[number]? = some changed ∧ changed.hasRoom = true ∧
      last.outcome = hub.outcome ∧ last.jobs = hub.jobs := by
  obtain ⟨first, queued, hqueued⟩ := List.exists_cons_of_ne_nil hwaiting
  have htake : mailbox.take? = some { mailbox with queued, taken := mailbox.taken ++ [first] } := by
    simp only [Mailbox.take?, hattended, hqueued]
  have hlt := (List.getElem?_eq_some_iff.1 hat).1
  simp only [step, take, Option.bind_eq_bind, hat, Option.bind_some, htake]
  refine ⟨_, _, rfl, List.getElem?_set_self hlt, ?_, rfl, rfl⟩
  simp only [Mailbox.Bounded, hqueued, List.length_cons] at hbounded
  simp only [Mailbox.hasRoom, decide_eq_true_eq]
  omega

/-- The answer about to be given can be given, if its receiver takes what is in the way. -/
theorem exists_answered (hc : hub.Coherent) {outcome : Outcome}
    (houtcome : hub.outcome = some outcome) :
    ∃ more last, hub.run more = some last ∧ (∀ action ∈ more, action.gives = true) ∧
      last.outcome = none ∧ last.jobs = hub.jobs := by
  have hlt := hc.outcome outcome houtcome
  obtain ⟨mailbox, hat⟩ : ∃ mailbox, hub.mailboxes[outcome.mailbox]? = some mailbox :=
    ⟨_, List.getElem?_eq_getElem hlt⟩
  by_cases hready : mailbox.attended = false ∨ mailbox.hasRoom = true
  · obtain ⟨last, hstep, hdone⟩ := exists_answer houtcome hat hready
    refine ⟨[.answer], last, ?_, by decide, hdone⟩
    rw [run_singleton, hstep]
  · simp only [not_or, Bool.not_eq_false, Bool.not_eq_true] at hready
    obtain ⟨hattended, hfull⟩ := hready
    by_cases hwaiting : mailbox.queued = []
    · have hmeets : mailbox.meets = true := by
        simp only [Mailbox.hasRoom, hwaiting, List.length_nil, decide_eq_false_iff_not] at hfull
        simp only [Mailbox.meets, hattended, Bool.true_and, decide_eq_true_eq]
        omega
      obtain ⟨last, hstep, hdone⟩ := exists_meetAnswer houtcome hat hmeets
      refine ⟨[.meetAnswer outcome.mailbox], last, ?_, ?_, hdone⟩
      · rw [run_singleton, hstep]
      · intro action hmem
        rw [List.mem_singleton.1 hmem]
        rfl
    · obtain ⟨middle, changed, htake, hchanged, hroom, hsame, hjobs⟩ :=
        exists_take hat (hc.bounded_at hat) hattended hwaiting
      obtain ⟨last, hstep, hnone, hlast⟩ :=
        exists_answer (hsame.trans houtcome) hchanged (.inr hroom)
      refine ⟨[.take outcome.mailbox, .answer], last, ?_, ?_, hnone, hlast.trans hjobs⟩
      · rw [run_cons, htake, Option.bind_some, run_singleton, hstep]
      · intro action hmem
        rcases List.mem_cons.1 hmem with rfl | hmem
        · rfl
        · rw [List.mem_singleton.1 hmem]
          rfl

/-- If nothing is in the way of the writer for good, it comes to the end of its list, whatever
    replies the requests for each of the jobs get. -/
theorem exists_finish (hc : hub.Coherent) {later : List Attempt}
    (hlater : later.map Attempt.job = hub.jobs) :
    ∃ more last, hub.run more = some last ∧ (∀ action ∈ more, action.ofWriter = true) ∧
      hub.history attemptIn more = later ∧ last.outcome = none ∧ last.jobs = [] := by
  -- The answer to the job before comes first.
  have hready : ∀ {hub : Hub σ}, hub.Coherent →
      ∃ more last, hub.run more = some last ∧ (∀ action ∈ more, action.gives = true) ∧
        last.outcome = none ∧ last.jobs = hub.jobs := by
    intro hub hc
    cases houtcome : hub.outcome with
    | none => exact ⟨[], hub, rfl, by simp, houtcome, rfl⟩
    | some outcome => exact exists_answered hc houtcome
  -- By induction on the list, for a hub whose last attempt may still want its answer.
  induction later generalizing hub with
  | nil =>
    obtain ⟨more, last, hrun, hmore, hnone, hlast⟩ := hready hc
    exact ⟨more, last, hrun, fun action hmem => ofWriter_of_gives (hmore action hmem),
      history_eq_nil hub fun action hmem middle => attemptIn_of_gives (hmore action hmem) middle,
      hnone, hlast.trans hlater.symm⟩
  | cons attempt later ih =>
    obtain ⟨first, middle, hfirst, hgives, hnone, hmiddle⟩ := hready hc
    have hjobs : middle.jobs = attempt.job :: later.map Attempt.job := hmiddle.trans hlater.symm
    obtain ⟨next, hwrite, hnext⟩ : ∃ next, middle.step (.write attempt.replies) = some next ∧
        next.jobs = later.map Attempt.job := by
      simp only [step, write, hnone, hjobs]
      exact ⟨_, rfl, rfl⟩
    have hcoherent : next.Coherent := coherent_of_move (move_of_step hwrite) (hc.run hfirst)
    have hattempt : middle.attemptIn (.write attempt.replies) = [attempt] := by
      rw [attemptIn, hjobs]
      rfl
    obtain ⟨more, last, hmore, hall, htried, hlast⟩ := ih hcoherent hnext.symm
    refine ⟨first ++ .write attempt.replies :: more, last, ?_, ?_, ?_, hlast⟩
    · rw [run_append, hfirst, Option.bind_some, run_cons, hwrite, Option.bind_some, hmore]
    · intro action hmem
      rcases List.mem_append.1 hmem with hmem | hmem
      · exact ofWriter_of_gives (hgives action hmem)
      · rcases List.mem_cons.1 hmem with rfl | hmem
        · rfl
        · exact hall action hmem
    · have hbefore : hub.history attemptIn first = [] :=
        history_eq_nil hub fun action hmem middle => attemptIn_of_gives (hgives action hmem) middle
      rw [history_append _ _ hfirst, hbefore, history_cons _ _ hwrite, hattempt, htried]
      rfl

/-! ## All together -/

/-- Neither a request nor the work on it changes the state of the show, or gets to its
    destinations. -/
theorem apart_of_move (hmove : Move hub action next)
    (h : action.asks = true ∨ action.ofWriter = true) :
    next.store = hub.store ∧ next.sinks = hub.sinks := by
  cases hmove with
  | update id raw session log hround hopen hraw =>
    rcases h with h | h
    · simp only [Action.asks, hraw] at h
      cases h
    · cases h
  | passOn =>
    rcases h with h | h
    · cases h
    · cases h
  | _ => exact ⟨rfl, rfl⟩

/-- What there is to say about the snapshots of a run. -/
structure Served (first : Hub σ) (actions : List Action) (hub : Hub σ) : Prop where
  -- What was asked for was attempted once or is still on the list, in the order of the
  -- requests. Contents and mailbox are those of the moment of the request.
  order : (first.attempts actions).map Attempt.job ++ hub.jobs = first.requests actions
  -- The attempts were made one after the other.
  written : hub.archive = first.archive.saveAll (first.attempts actions)
  -- Every attempt has one answer, which tells whether it has succeeded; the last may not be
  -- given yet.
  answered : first.answers actions ++ hub.outcome.toList =
    first.archive.outcomes (first.attempts actions)
  -- The answers for a mailbox, and none else, came into it while it had a receiver.
  received : ∀ number mailbox, hub.mailboxes[number]? = some mailbox →
    mailbox.answers <+: textsFor number (first.answers actions) ∧
      (mailbox.attended = true → mailbox.answers = textsFor number (first.answers actions))
  -- So did the refusals, of which one may be under way.
  refused : ∀ number mailbox, hub.mailboxes[number]? = some mailbox →
    mailbox.refusals <+: first.refusals number actions ∧
      (mailbox.attended = true →
        mailbox.refusals ++ hub.refusalDue number = first.refusals number actions)
  -- Neither requests nor the work on them change the store or the destinations.
  apart : ∀ action next, hub.step action = some next →
    action.asks = true ∨ action.ofWriter = true →
      next.store = hub.store ∧ next.sinks = hub.sinks
  -- No request was broadcast.
  broadcast : ∀ mailbox ∈ hub.mailboxes, ∀ raw ∈ mailbox.broadcasts,
    Request.classify raw = .update raw
  -- No request was passed on.
  passed : ∃ passed, hub.sinks = first.sinks.map (Sink.givenAll passed) ∧
    ∀ raw ∈ passed, Request.classify raw = .update raw
  -- The writer can finish its list, whatever replies the system gives for the jobs on it, and
  -- then the archive and the answers are those of all requests one after the other.
  finish : ∀ later : List Attempt, later.map Attempt.job = hub.jobs →
    ∃ more last, hub.run more = some last ∧ (∀ action ∈ more, action.ofWriter = true) ∧
      last.archive = first.archive.saveAll (first.attempts actions ++ later) ∧
      first.answers (actions ++ more) = first.archive.outcomes (first.attempts actions ++ later)

/-- Snapshots in every run: whatever happens between the request, the attempt and the
    answer. -/
theorem served_of_run {store : Store} {sinks : List σ} {actions : List Action}
    (hrun : (start store archive sinks).run actions = some hub) :
    Served (start store archive sinks) actions hub := by
  have hrecorded := recorded_of_run hrun
  refine ⟨hrecorded.order, hrecorded.written, hrecorded.answered, ?_, ?_, ?_, ?_, ?_, ?_⟩
  · intro number mailbox hat
    have haccount := answered_of_run hrun number
    refine ⟨haccount.sent mailbox hat, fun hattended => ?_⟩
    rw [← haccount.sum mailbox hat hattended, List.append_nil]
  · intro number mailbox hat
    have haccount := refused_of_run hrun number
    exact ⟨haccount.sent mailbox hat, haccount.sum mailbox hat⟩
  · intro action next hstep h
    exact apart_of_move (move_of_step hstep) h
  · intro mailbox hmem raw hraw
    exact classify_of_broadcast hrun hmem hraw
  · obtain ⟨passed, hpassed, hsinks⟩ := (merged_of_run hrun).passed
    refine ⟨passed, hsinks, fun raw hraw => ?_⟩
    have hmem := List.mem_append_left hub.updateInHand hraw
    rw [hpassed] at hmem
    exact classify_of_mem_updates hmem
  · intro later hlater
    obtain ⟨more, last, hmore, hall, htried, hnone, -⟩ :=
      exists_finish (coherent_of_run hrun) hlater
    have hlast : (start store archive sinks).run (actions ++ more) = some last := by
      rw [run_append, hrun]
      exact hmore
    have hattempts : (start store archive sinks).attempts (actions ++ more) =
        (start store archive sinks).attempts actions ++ later := by
      rw [Hub.attempts, history_append _ _ hrun, htried]
      rfl
    obtain ⟨-, hwritten, hanswered⟩ := recorded_of_run hlast
    rw [hnone, Option.toList_none, List.append_nil, hattempts] at hanswered
    rw [hattempts] at hwritten
    exact ⟨more, last, hmore, hall, hwritten, hanswered⟩

/-- Three snapshots and a name of which nothing is left. The first is written after the store has
    changed, the second cannot be written because a folder is in the way, and for the third there
    is no space left after its first byte. -/
theorem served_of_rehearsal :
    ∃ (archive : Archive) (actions : List Action) (hub : Hub Recorder),
      (start Store.blank archive []).run actions = some hub ∧
      Served (start Store.blank archive []) actions hub ∧
      (hub.archive.place.node?.bind fun node => node.at? [Utf8.encode "a.preset"]) =
        some (.file (Utf8.encode "x:1\n")) ∧
      (hub.mailboxes.map Mailbox.answers, hub.mailboxes.map Mailbox.refusals) =
        ([["saved:a", "savefailed:b", "savefailed:c"]], [["savefailed:"]]) ∧
      hub.archive.place.find? (Utf8.encode "c.preset") = none := by
  refine ⟨.ofDisk "presets"
      { place := .folder (Table.empty.insert (Utf8.encode "b.preset") (.folder [])) } 1,
    [.handle (.connect ⟨1⟩ "desk" 4), .handle (.message ⟨1⟩ "x:1"), .proceed,
      .handle (.message ⟨1⟩ "save:a/"), .handle (.message ⟨1⟩ "x:2"), .proceed,
      .handle (.message ⟨1⟩ "save:b"), .handle (.message ⟨1⟩ "save:/"), .write [], .proceed,
      .answer, .write [], .proceed, .handle (.message ⟨1⟩ "save:c"), .answer,
      .write [.grant 0, .grant 0, .grant 1, .refuse .noSpace], .answer],
    _, rfl, served_of_run rfl, ?_, ?_, ?_⟩
  · rfl
  · rfl
  · rfl

end

end Hub

end ShowRelay
