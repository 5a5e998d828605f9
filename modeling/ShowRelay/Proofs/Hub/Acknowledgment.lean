/-
  ShowRelay.Proofs.Hub.Acknowledgment

  Where the messages in a mailbox come from. An answer is to a request that the
  registration of the mailbox made itself in an earlier step, and tells what became
  of this very request (`Hub.Acknowledges`). Everything else is an update that some
  other session sent, word for word (`Hub.PassedOn`).

  The two kinds have one form on the wire. `save:` is the only beginning that is
  reserved, so an update may begin as an answer does, and the sessions that it is
  passed on to cannot tell the difference (`Hub.mistaken_of_update`).
-/

import ShowRelay.Proofs.Hub.Saving

namespace ShowRelay

/-- A text begins as the answers to requests for snapshots do. -/
def Request.BeginsAsAnswer (text : String) : Prop :=
  savedTag.toList <+: text.toList ∨ saveFailedTag.toList <+: text.toList

instance (text : String) : Decidable (Request.BeginsAsAnswer text) :=
  inferInstanceAs (Decidable (Request.savedTag.toList <+: text.toList ∨
    Request.saveFailedTag.toList <+: text.toList))

namespace Archive

/-- Every answer is to one of the attempts, made after those before it. -/
theorem exists_of_mem_outcomes {archive : Archive} {attempts : List Hub.Attempt}
    {outcome : Hub.Outcome} (h : outcome ∈ archive.outcomes attempts) :
    ∃ earlier attempt later, attempts = earlier ++ attempt :: later ∧
      outcome.mailbox = attempt.job.mailbox ∧
      outcome.text = attempt.job.answer ((archive.saveAll earlier).attempt attempt).2 := by
  induction attempts generalizing archive with
  | nil => cases h
  | cons attempt attempts ih =>
    rcases List.mem_cons.1 h with rfl | h
    · exact ⟨[], attempt, attempts, rfl, rfl, rfl⟩
    · obtain ⟨earlier, other, later, hattempts, hmailbox, htext⟩ := ih h
      exact ⟨attempt :: earlier, other, later, congrArg _ hattempts, hmailbox, htext⟩

end Archive

namespace Hub

variable {σ : Type}

/-! ## What a step asks for -/

/-- The name under which the registration of a mailbox asks for a snapshot in a step. -/
def askedIn? (hub : Hub σ) (number : Nat) : Action → Option String
  | .handle (.message id raw) =>
    match hub.sessions.get? id, Request.classify raw with
    | some session, .save name => if session.mailbox = number then some name else none
    | _, _ => none
  | _ => none

theorem askedIn?_of_jobIn {hub : Hub σ} {action : Action} {job : Job}
    (h : hub.jobIn action = [job]) :
    ∃ name, hub.askedIn? job.mailbox action = some name ∧
      SnapshotName.sanitize name = .ok job.name ∧ job.contents = hub.store.text ++ "\n" := by
  cases action with
  | handle event =>
    cases event with
    | message id raw =>
      cases hsession : hub.sessions.get? id with
      | none =>
        rw [jobIn_of_closed raw hsession] at h
        cases h
      | some session =>
        cases hraw : Request.classify raw with
        | update text =>
          rw [jobIn_of_update hraw] at h
          cases h
        | save name =>
          simp only [jobIn, hsession, hraw] at h
          split at h
          · next clean hname =>
            cases h
            refine ⟨name, ?_, hname, rfl⟩
            simp only [askedIn?, hsession, hraw, if_true]
          · cases h
    | connect id peer depth => cases h
    | disconnect id => cases h
  | _ => cases h

theorem length_jobIn_le (hub : Hub σ) (action : Action) : (hub.jobIn action).length ≤ 1 := by
  unfold jobIn
  split
  · split
    · split
      · exact Nat.le_refl 1
      · exact Nat.zero_le 1
    · exact Nat.zero_le 1
  · exact Nat.zero_le 1

theorem length_offersIn_le (number : Nat) (hub : Hub σ) (action : Action) :
    (hub.offersIn number action).length ≤ 1 := by
  unfold offersIn
  split
  · split
    · exact Nat.zero_le 1
    · split
      · exact Nat.le_refl 1
      · exact Nat.zero_le 1
    · split
      · exact Nat.le_refl 1
      · exact Nat.zero_le 1
  · exact Nat.zero_le 1

/-- The hub itself answers only to refuse a name. -/
theorem askedIn?_of_offersIn {hub : Hub σ} {number : Nat} {action : Action} {text : String}
    (h : .answer text ∈ hub.offersIn number action) :
    ∃ name fault, hub.askedIn? number action = some name ∧
      SnapshotName.sanitize name = .error fault ∧ text = Request.saveFailedTag := by
  cases action with
  | handle event =>
    cases event with
    | message id raw =>
      simp only [offersIn] at h
      split at h
      · cases h
      · split at h
        · cases List.mem_singleton.1 h
        · cases h
      · next session name hsession hraw =>
        split at h
        · next hrefused =>
          cases List.mem_singleton.1 h
          cases hname : SnapshotName.sanitize name with
          | error fault =>
            refine ⟨name, fault, ?_, hname, rfl⟩
            simp only [askedIn?, hsession, hraw, hrefused.1, if_true]
          | ok clean =>
            rw [hname] at hrefused
            cases hrefused.2
        · cases h
    | connect id peer depth => cases h
    | disconnect id => cases h
  | _ => cases h

/-- An update is offered to the mailboxes of others. -/
theorem message_of_offersIn {hub : Hub σ} {number : Nat} {action : Action} {raw : String}
    (h : .broadcast raw ∈ hub.offersIn number action) :
    ∃ sender receiver, action = .handle (.message sender raw) ∧
      hub.accepted? (.message sender raw) = some raw ∧ receiver ≠ sender ∧
        holds hub.sessions number receiver = true := by
  cases action with
  | handle event =>
    cases event with
    | message id text =>
      simp only [offersIn] at h
      split at h
      · cases h
      · next session update hsession hraw =>
        have htext := Request.eq_of_classify_eq_update hraw
        subst htext
        split at h
        · next hothers =>
          cases List.mem_singleton.1 h
          obtain ⟨receiver, _, hreceiver⟩ := List.any_eq_true.1 hothers
          rw [decide_eq_true_eq] at hreceiver
          exact ⟨id, receiver, rfl, accepted?_of_open hsession hraw, hreceiver.1, hreceiver.2⟩
        · cases h
      · split at h
        · cases List.mem_singleton.1 h
        · cases h
    | connect id peer depth => cases h
    | disconnect id => cases h
  | _ => cases h

section

variable [Sink σ]

/-! ## Origins -/

/-- A text is the answer to a request that the registration of a mailbox made in an earlier
    step: the refusal of a name of which nothing is left, or what became of the attempt that the
    request has led to. The contents are those of the store at that step, and the attempts before
    are those at what was asked for before. -/
def Acknowledges (first : Hub σ) (actions : List Action) (number : Nat) (text : String) : Prop :=
  ∃ before middle action name, Taken first actions before middle action ∧
    middle.askedIn? number action = some name ∧
    match SnapshotName.sanitize name with
    | .error _ => text = Request.saveFailedTag
    | .ok clean => ∃ earlier attempt, earlier ++ [attempt] <+: first.attempts actions ∧
      earlier.map Attempt.job = first.requests before ∧
      attempt.job = ⟨clean, middle.store.text ++ "\n", number⟩ ∧
      text = attempt.job.answer ((first.archive.saveAll earlier).attempt attempt).2

/-- A text is an update that was accepted from a session, when another one was registered with
    a mailbox. -/
def PassedOn (first : Hub σ) (actions : List Action) (number : Nat) (text : String) : Prop :=
  ∃ before middle sender receiver,
    Taken first actions before middle (.handle (.message sender text)) ∧
      middle.accepted? (.message sender text) = some text ∧ receiver ≠ sender ∧
        holds middle.sessions number receiver = true

variable {hub : Hub σ} {store : Store} {archive : Archive} {sinks : List σ}
  {actions : List Action} {number : Nat} {mailbox : Mailbox}

/-- What comes into a mailbox by a round was offered to it at some step. -/
theorem taken_of_offered (hrun : (start store archive sinks).run actions = some hub)
    (hat : hub.mailboxes[number]? = some mailbox) {d : Delivery} (hd : d ∈ mailbox.offered) :
    ∃ before middle action, Taken (start store archive sinks) actions before middle action ∧
      d ∈ middle.offersIn number action := by
  have hmem := ((balanced_of_run hrun number).sent mailbox hat).subset hd
  obtain ⟨earlier, later, hsplit⟩ := List.append_of_mem hmem
  obtain ⟨before, middle, action, htaken, -, hone⟩ :=
    exists_taken (length_offersIn_le number) hsplit
  exact ⟨before, middle, action, htaken, by rw [hone]; exact List.mem_singleton_self d⟩

/-- Every answer in a mailbox acknowledges a request of its registration. -/
theorem acknowledges_of_answer (hrun : (start store archive sinks).run actions = some hub)
    (hat : hub.mailboxes[number]? = some mailbox) {text : String}
    (hd : .answer text ∈ mailbox.contents) :
    Acknowledges (start store archive sinks) actions number text := by
  by_cases hrefusal : text = Request.saveFailedTag
  · have hoffered : .answer text ∈ mailbox.offered :=
      List.mem_filter.2 ⟨hd, by simp [Delivery.ofRound, hrefusal]⟩
    obtain ⟨before, middle, action, htaken, hoffers⟩ := taken_of_offered hrun hat hoffered
    obtain ⟨name, fault, hasked, hname, htext⟩ := askedIn?_of_offersIn hoffers
    refine ⟨before, middle, action, name, htaken, hasked, ?_⟩
    rw [hname]
    exact htext
  · have hanswer : text ∈ mailbox.answers :=
      List.mem_filterMap.2 ⟨_, hd, by simp [Delivery.answer?, hrefusal]⟩
    have hrecorded := recorded_of_run hrun
    have hgiven := ((answered_of_run hrun number).sent mailbox hat).subset hanswer
    obtain ⟨outcome, houtcome, rfl⟩ := List.mem_map.1 hgiven
    obtain ⟨houtcome, hnumber⟩ := List.mem_filter.1 houtcome
    -- The answer is to an attempt, and so to one of the requests.
    have hmem : outcome ∈ archive.outcomes ((start store archive sinks).attempts actions) := by
      rw [← hrecorded.answered]
      exact List.mem_append_left _ houtcome
    obtain ⟨earlier, attempt, later, htried, hmailbox, htext⟩ :=
      Archive.exists_of_mem_outcomes hmem
    have hrequests : (start store archive sinks).requests actions =
        earlier.map Attempt.job ++ attempt.job :: (later.map Attempt.job ++ hub.jobs) := by
      rw [← hrecorded.order, htried, List.map_append, List.append_assoc]
      rfl
    obtain ⟨before, middle, action, htaken, hbefore, hjob⟩ :=
      exists_taken length_jobIn_le hrequests
    obtain ⟨name, hasked, hname, hcontents⟩ := askedIn?_of_jobIn hjob
    rw [← hmailbox, of_decide_eq_true hnumber] at hasked
    refine ⟨before, middle, action, name, htaken, hasked, ?_⟩
    rw [hname]
    refine ⟨earlier, attempt, ?_, hbefore.symm, ?_, htext⟩
    · exact ⟨later, by rw [htried, List.append_assoc, List.singleton_append]⟩
    · rw [← of_decide_eq_true hnumber, hmailbox, ← hcontents]

/-- Every other message in a mailbox was passed on from another session. -/
theorem passedOn_of_broadcast (hrun : (start store archive sinks).run actions = some hub)
    (hat : hub.mailboxes[number]? = some mailbox) {raw : String}
    (hd : .broadcast raw ∈ mailbox.contents) :
    PassedOn (start store archive sinks) actions number raw := by
  have hoffered : .broadcast raw ∈ mailbox.offered := List.mem_filter.2 ⟨hd, rfl⟩
  obtain ⟨before, middle, action, htaken, hoffers⟩ := taken_of_offered hrun hat hoffered
  obtain ⟨sender, receiver, rfl, haccepted, hother, hholds⟩ := message_of_offersIn hoffers
  exact ⟨before, middle, sender, receiver, htaken, haccepted, hother, hholds⟩

theorem PassedOn.mem_updates {first : Hub σ} {text : String}
    (h : PassedOn first actions number text) : text ∈ first.updates actions := by
  obtain ⟨before, middle, sender, receiver, htaken, haccepted, -, -⟩ := h
  refine htaken.mem_history ?_
  rw [updateIn, haccepted]
  exact List.mem_singleton_self text

/-- The messages of a mailbox in every run. Each of them is the answer to an earlier request of
    its own registration or an update of another session, word for word. If the registration
    asked for nothing they are all of the second kind; and if no client sends an update that
    begins as an answer does, whatever begins so is of the first. -/
theorem origins_of_run (hrun : (start store archive sinks).run actions = some hub)
    (hat : hub.mailboxes[number]? = some mailbox) :
    (∀ d ∈ mailbox.contents,
      (∃ text, d = .answer text ∧ Acknowledges (start store archive sinks) actions number text) ∨
      (∃ raw, d = .broadcast raw ∧ PassedOn (start store archive sinks) actions number raw)) ∧
    ((∀ before middle action, Taken (start store archive sinks) actions before middle action →
        middle.askedIn? number action = none) →
      ∀ d ∈ mailbox.contents, PassedOn (start store archive sinks) actions number d.text) ∧
    ((∀ raw ∈ (start store archive sinks).updates actions, ¬ Request.BeginsAsAnswer raw) →
      ∀ d ∈ mailbox.contents, Request.BeginsAsAnswer d.text →
        Acknowledges (start store archive sinks) actions number d.text) := by
  have horigin : ∀ d ∈ mailbox.contents,
      (∃ text, d = .answer text ∧ Acknowledges (start store archive sinks) actions number text) ∨
      (∃ raw, d = .broadcast raw ∧ PassedOn (start store archive sinks) actions number raw) := by
    intro d hd
    cases d with
    | answer text => exact .inl ⟨text, rfl, acknowledges_of_answer hrun hat hd⟩
    | broadcast raw => exact .inr ⟨raw, rfl, passedOn_of_broadcast hrun hat hd⟩
  refine ⟨horigin, fun hnone d hd => ?_, fun hplain d hd hbegins => ?_⟩
  · rcases horigin d hd with ⟨text, rfl, before, middle, action, name, htaken, hasked, -⟩ |
      ⟨raw, rfl, hpassed⟩
    · rw [hnone before middle action htaken] at hasked
      cases hasked
    · exact hpassed
  · rcases horigin d hd with ⟨text, rfl, hacknowledges⟩ | ⟨raw, rfl, hpassed⟩
    · exact hacknowledges
    · exact absurd hbegins (hplain raw hpassed.mem_updates)

/-- A session that gets an update and the answer to its own request. -/
theorem origins_of_request :
    ∃ (hub : Hub Recorder) (mailbox : Mailbox),
      (start Store.blank (.ofDisk "presets" { place := .absent } 1) []).run
        [.handle (.connect ⟨1⟩ "desk" 4), .handle (.connect ⟨2⟩ "pad" 4),
          .handle (.message ⟨2⟩ "x:1"), .proceed, .proceed, .handle (.message ⟨1⟩ "save:a"),
          .write [], .answer, .take 0, .take 0] = some hub ∧
      hub.mailboxes[0]? = some mailbox ∧ mailbox.taken.map Delivery.text = ["x:1", "saved:a"] ∧
      Acknowledges (start (σ := Recorder) Store.blank
        (.ofDisk "presets" { place := .absent } 1) [])
        [.handle (.connect ⟨1⟩ "desk" 4), .handle (.connect ⟨2⟩ "pad" 4),
          .handle (.message ⟨2⟩ "x:1"), .proceed, .proceed, .handle (.message ⟨1⟩ "save:a"),
          .write [], .answer, .take 0, .take 0] 0 "saved:a" := by
  refine ⟨_, _, rfl, rfl, rfl, ?_⟩
  refine (@origins_of_run Recorder _ ?hub _ _ _ _ 0 ?mailbox ?hrun ?hat).2.2 ?hplain
    (.answer "saved:a") ?hmem ?hbegins
  case hrun => rfl
  case hat => rfl
  case hplain => decide
  case hmem => decide
  case hbegins => decide

/-- A session that sends nothing gets what it has to take for the answer to a request, in a run
    in which nobody asks for a snapshot. -/
theorem mistaken_of_update :
    ∃ (hub : Hub Recorder) (mailbox : Mailbox),
      (start Store.blank (.ofDisk "presets" { place := .absent } 1) []).run
        [.handle (.connect ⟨1⟩ "desk" 4), .handle (.connect ⟨2⟩ "pad" 4),
          .handle (.message ⟨1⟩ "saved:x"), .proceed, .proceed, .take 1] = some hub ∧
      hub.sessions.get? ⟨2⟩ = some ⟨"pad", 1⟩ ∧ hub.mailboxes[1]? = some mailbox ∧
      mailbox.taken.map Delivery.text = ["saved:x"] ∧ Request.BeginsAsAnswer "saved:x" ∧
      (Action.handle (.message ⟨1⟩ "saved:x")).asks = false :=
  ⟨_, _, rfl, rfl, rfl, rfl, by decide, rfl⟩

end

end Hub

end ShowRelay
