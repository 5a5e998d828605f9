/-
  ShowRelay.Proofs.Hub.Delivery

  What comes into the mailbox of a registration by the rounds of the hub: the
  updates of other sessions, and the hub's own answer to a name that it
  refuses. `Hub.offersIn` says what a mailbox is owed at a step, judged by who
  is registered at that moment.

  The main statement is a balance (`Hub.balanced_of_run`). As long as the
  receiver is there, what has come in and what the round at hand still has to
  offer is together what the mailbox was owed, in order and without repetition,
  whatever becomes of the other sessions meanwhile.
-/

import ShowRelay.Proofs.Hub.Coherence

namespace ShowRelay

/-- Whether a message is one of those that the hub itself offers. The snapshot writer
    answers with a name after the tag. -/
def Delivery.ofRound : Delivery → Bool
  | broadcast _ => true
  | answer text => text = Request.saveFailedTag

/-- The updates that came into a mailbox, oldest first. -/
def Mailbox.broadcasts (m : Mailbox) : List String := m.contents.filterMap Delivery.raw?

/-- The messages of the hub itself that came into a mailbox, oldest first. -/
def Mailbox.offered (m : Mailbox) : List Delivery := m.contents.filter Delivery.ofRound

theorem Mailbox.broadcasts_eq_offered (m : Mailbox) :
    m.broadcasts = m.offered.filterMap Delivery.raw? := by
  rw [broadcasts, offered, List.filterMap_filter]
  congr 1
  funext d
  cases d with
  | broadcast raw => rfl
  | answer text =>
    simp only [Delivery.raw?]
    split <;> rfl

theorem Mailbox.Accepts.offered {m n : Mailbox} {d : Delivery} (h : m.Accepts d n)
    (hm : m.Bounded) : n.offered = m.offered ++ [d].filter Delivery.ofRound := by
  rw [Mailbox.offered, h.contents hm, List.filter_append, Mailbox.offered]

namespace Hub

/-- Whether a session is registered with a mailbox. -/
def holds (sessions : Table SessionId Registration) (number : Nat) (id : SessionId) : Bool :=
  (sessions.get? id).any fun session => session.mailbox = number

theorem holds_iff {sessions : Table SessionId Registration} {number : Nat} {id : SessionId} :
    holds sessions number id = true ↔
      ∃ session, sessions.get? id = some session ∧ session.mailbox = number := by
  simp [holds, Option.any_eq_true]

/-- What a round still has to offer to a mailbox. -/
def Round.dueAt (sessions : Table SessionId Registration) (number : Nat) (round : Round) :
    List Delivery :=
  if round.pending.any (holds sessions number) then [round.delivery] else []

variable {σ : Type}

/-- What the hub still has to offer to a mailbox in the round at hand. -/
def dueAt (hub : Hub σ) (number : Nat) : List Delivery :=
  hub.round.elim [] (Round.dueAt hub.sessions number)

/-- What a mailbox is owed for a step: the update of a session other than its own, or the
    refusal of a name that its own session gave. -/
def offersIn (number : Nat) (hub : Hub σ) : Action → List Delivery
  | .handle (.message id raw) =>
    match hub.sessions.get? id, Request.classify raw with
    | none, _ => []
    | some _, .update raw =>
      if hub.sessions.keys.any fun other => other ≠ id ∧ holds hub.sessions number other then
        [.broadcast raw]
      else []
    | some session, .save name =>
      if session.mailbox = number ∧ (SnapshotName.sanitize name).isOk = false then
        [.answer Request.saveFailedTag]
      else []
  | _ => []

/-! ## The account of a mailbox -/

/-- What has come into a mailbox of one kind, and is still to come, is what it was owed. -/
structure Account {α : Type} (kind : Mailbox → List α) (hub : Hub σ) (number : Nat)
    (due owed : List α) : Prop where
  -- A mailbox that does not exist yet is owed nothing.
  unborn : hub.mailboxes.length ≤ number → owed = []
  -- Nothing else comes in.
  sent : ∀ mailbox, hub.mailboxes[number]? = some mailbox → kind mailbox <+: owed
  -- The sum, as long as there is a receiver.
  sum : ∀ mailbox, hub.mailboxes[number]? = some mailbox → mailbox.attended = true →
    kind mailbox ++ due = owed

section

variable {α : Type} {kind : Mailbox → List α} {hub next : Hub σ} {number : Nat}
  {due owed : List α}

theorem Account.start (store : Store) (archive : Archive) (sinks : List σ) :
    Account kind (Hub.start store archive sinks) number [] [] where
  unborn _ := rfl
  sent _ hnone := by cases hnone
  sum _ hnone := by cases hnone

/-- Nothing has happened to any mailbox. -/
theorem Account.keep (h : Account kind hub number due owed)
    (hmailboxes : next.mailboxes = hub.mailboxes) : Account kind next number due (owed ++ []) := by
  rw [List.append_nil]
  refine ⟨?_, ?_, ?_⟩
  · rw [hmailboxes]
    exact h.unborn
  · rw [hmailboxes]
    exact h.sent
  · rw [hmailboxes]
    exact h.sum

/-- A mailbox was changed, and nothing of the kind has come into the one of the account. -/
theorem Account.set (h : Account kind hub number due owed) {other : Nat}
    {found changed : Mailbox} (hfound : hub.mailboxes[other]? = some found)
    (hattended : found.attended = true) (hkind : other = number → kind changed = kind found)
    (hmailboxes : next.mailboxes = hub.mailboxes.set other changed) :
    Account kind next number due (owed ++ []) := by
  rw [List.append_nil]
  have hat : ∀ mailbox, next.mailboxes[number]? = some mailbox →
      ∃ before, hub.mailboxes[number]? = some before ∧ kind mailbox = kind before ∧
        (mailbox.attended = true → before.attended = true) := by
    intro mailbox hat
    rw [hmailboxes] at hat
    by_cases hother : other = number
    · subst hother
      rw [List.getElem?_set_self (List.getElem?_eq_some_iff.1 hfound).1] at hat
      cases hat
      exact ⟨found, hfound, hkind rfl, fun _ => hattended⟩
    · rw [List.getElem?_set_ne hother] at hat
      exact ⟨mailbox, hat, rfl, id⟩
  refine ⟨fun hle => h.unborn (by rwa [hmailboxes, List.length_set] at hle), ?_, ?_⟩
  · intro mailbox hmailbox
    obtain ⟨before, hbefore, hsame, _⟩ := hat mailbox hmailbox
    rw [hsame]
    exact h.sent before hbefore
  · intro mailbox hmailbox hthere
    obtain ⟨before, hbefore, hsame, hthen⟩ := hat mailbox hmailbox
    rw [hsame]
    exact h.sum before hbefore (hthen hthere)

/-- Something has come into the mailbox of the account. -/
theorem Account.receive {found changed : Mailbox} (hfound : hub.mailboxes[number]? = some found)
    (hmailboxes : next.mailboxes = hub.mailboxes.set number changed)
    (hsum : kind changed ++ due = owed) : Account kind next number due owed := by
  have hlt := (List.getElem?_eq_some_iff.1 hfound).1
  have hat : ∀ mailbox, next.mailboxes[number]? = some mailbox → mailbox = changed := by
    intro mailbox hat
    rw [hmailboxes, List.getElem?_set_self hlt] at hat
    exact (Option.some.inj hat).symm
  refine ⟨?_, ?_, ?_⟩
  · intro hle
    rw [hmailboxes, List.length_set] at hle
    exact absurd hlt (Nat.not_lt_of_le hle)
  · intro mailbox hmailbox
    rw [hat mailbox hmailbox, ← hsum]
    exact List.prefix_append _ due
  · intro mailbox hmailbox _
    rw [hat mailbox hmailbox, hsum]

/-- Something was owed to the mailbox of the account when there was no receiver. -/
theorem Account.miss (h : Account kind hub number due owed) (hlt : number < hub.mailboxes.length)
    (hgone : ∀ mailbox, hub.mailboxes[number]? = some mailbox → mailbox.attended = false)
    (hmailboxes : next.mailboxes = hub.mailboxes) {more : List α} :
    Account kind next number due (owed ++ more) := by
  refine ⟨?_, ?_, ?_⟩
  · intro hle
    rw [hmailboxes] at hle
    exact absurd hlt (Nat.not_lt_of_le hle)
  · intro mailbox hat
    rw [hmailboxes] at hat
    exact (h.sent mailbox hat).trans (List.prefix_append owed more)
  · intro mailbox hat hattended
    rw [hmailboxes] at hat
    rw [hgone mailbox hat] at hattended
    cases hattended

/-- A mailbox was added, into which nothing has come. -/
theorem Account.connect (h : Account kind hub number [] owed) {new : Mailbox}
    (hkind : kind new = []) (hmailboxes : next.mailboxes = hub.mailboxes ++ [new]) :
    Account kind next number [] (owed ++ []) := by
  rw [List.append_nil]
  have hlength : next.mailboxes.length = hub.mailboxes.length + 1 := by
    rw [hmailboxes, List.length_append, List.length_singleton]
  have hat : ∀ mailbox, next.mailboxes[number]? = some mailbox →
      hub.mailboxes[number]? = some mailbox ∨ (kind mailbox = [] ∧ owed = []) := by
    intro mailbox hat
    rw [hmailboxes] at hat
    by_cases hlt : number < hub.mailboxes.length
    · rw [List.getElem?_append_left hlt] at hat
      exact .inl hat
    · have hle : hub.mailboxes.length ≤ number := Nat.le_of_not_lt hlt
      rw [List.getElem?_append_right hle] at hat
      have hnew : mailbox = new := List.mem_singleton.1 (List.mem_of_getElem? hat)
      exact .inr ⟨hnew ▸ hkind, h.unborn hle⟩
  refine ⟨fun hle => h.unborn (by omega), ?_, ?_⟩
  · intro mailbox hmailbox
    rcases hat mailbox hmailbox with hbefore | ⟨hnone, _⟩
    · exact h.sent mailbox hbefore
    · rw [hnone]
      exact List.nil_prefix
  · intro mailbox hmailbox hthere
    rcases hat mailbox hmailbox with hbefore | ⟨hnone, hnothing⟩
    · exact h.sum mailbox hbefore hthere
    · rw [hnone, hnothing]
      rfl

end

/-! ## The balance of a mailbox -/

/-- What has come into a mailbox by rounds, and is still to come in the round at hand, is
    what it was owed. -/
def Balanced (hub : Hub σ) (number : Nat) (owed : List Delivery) : Prop :=
  Account Mailbox.offered hub number (hub.dueAt number) owed

variable {hub next : Hub σ} {number : Nat} {owed : List Delivery}

theorem dueAt_of_rest (h : hub.round = none) (number : Nat) : hub.dueAt number = [] := by
  rw [dueAt, h]
  rfl

theorem dueAt_of_round {round : Round} (h : hub.round = some round) (number : Nat) :
    hub.dueAt number = round.dueAt hub.sessions number := by
  rw [dueAt, h]
  rfl

theorem Round.dueAt_of_done {round : Round} (h : round.pending = [])
    (sessions : Table SessionId Registration) (number : Nat) :
    round.dueAt sessions number = [] := by
  rw [Round.dueAt, h]
  rfl

/-- Nothing that matters to a mailbox has happened. -/
theorem Balanced.keep (h : hub.Balanced number owed)
    (hmailboxes : next.mailboxes = hub.mailboxes) (hdue : next.dueAt number = hub.dueAt number) :
    next.Balanced number (owed ++ []) := by
  rw [Balanced, hdue]
  exact Account.keep h hmailboxes

theorem Balanced.connect (h : hub.Balanced number owed) (hbefore : hub.round = none)
    (hafter : next.round = none) {depth : Nat}
    (hmailboxes : next.mailboxes = hub.mailboxes ++ [({ depth } : Mailbox)]) :
    next.Balanced number (owed ++ []) := by
  have hrest : Account Mailbox.offered hub number [] owed := by
    rw [← dueAt_of_rest hbefore number]
    exact h
  rw [Balanced, dueAt_of_rest hafter]
  exact hrest.connect rfl hmailboxes

/-- A mailbox was changed without a message of a round coming in. -/
theorem Balanced.set (h : hub.Balanced number owed) {other : Nat} {found changed : Mailbox}
    (hfound : hub.mailboxes[other]? = some found) (hattended : found.attended = true)
    (hoffered : other = number → changed.offered = found.offered)
    (hmailboxes : next.mailboxes = hub.mailboxes.set other changed)
    (hdue : next.dueAt number = hub.dueAt number) : next.Balanced number (owed ++ []) := by
  rw [Balanced, hdue]
  exact Account.set h hfound hattended hoffered hmailboxes

/-- A round begins: what it has to offer is owed from now on. -/
theorem Balanced.begin (h : hub.Balanced number owed) (hrest : hub.round = none)
    (hregisters : Registers hub.sessions hub.mailboxes.length) {round : Round}
    (hsessions : next.sessions = hub.sessions) (hmailboxes : next.mailboxes = hub.mailboxes)
    (hround : next.round = some round) :
    next.Balanced number (owed ++ round.dueAt hub.sessions number) := by
  refine ⟨?_, ?_, ?_⟩
  · intro hle
    rw [hmailboxes] at hle
    have hnobody : round.pending.any (holds hub.sessions number) = false := by
      rw [List.any_eq_false]
      intro id _ hholds
      obtain ⟨session, hsession, hnumber⟩ := holds_iff.1 hholds
      have hlt := hregisters.numbered hsession
      omega
    rw [h.unborn hle, Round.dueAt, hnobody]
    rfl
  · intro mailbox hat
    rw [hmailboxes] at hat
    exact (h.sent mailbox hat).trans (List.prefix_append owed _)
  · intro mailbox hat hattended
    rw [hmailboxes] at hat
    have hsum := h.sum mailbox hat hattended
    rw [dueAt_of_rest hrest, List.append_nil] at hsum
    rw [dueAt_of_round hround, hsessions, hsum]

/-- To pass over a session is nothing to the mailboxes of others. -/
theorem Round.dueAt_next {sessions : Table SessionId Registration} {round : Round}
    {id : SessionId} {rest : List SessionId} (hpending : round.pending = id :: rest)
    (hother : holds sessions number id = false) :
    round.next.dueAt sessions number = round.dueAt sessions number := by
  simp only [Round.dueAt, Round.next, hpending, List.tail_cons, List.any_cons, hother,
    Bool.false_or]

theorem holds_of_registered {sessions : Table SessionId Registration} {id : SessionId}
    {session : Registration} (h : sessions.get? id = some session) (number : Nat) :
    holds sessions number id = decide (session.mailbox = number) := by
  rw [holds, h, Option.any_some]

theorem Round.dueAt_of_head {sessions : Table SessionId Registration} {round : Round}
    {id : SessionId} {rest : List SessionId} (hpending : round.pending = id :: rest)
    {session : Registration} (hsession : sessions.get? id = some session) :
    round.dueAt sessions session.mailbox = [round.delivery] := by
  have hholds : holds sessions session.mailbox id = true :=
    holds_iff.2 ⟨session, hsession, rfl⟩
  rw [Round.dueAt, hpending, List.any_cons, hholds, Bool.true_or, if_pos rfl]

/-- Once a session was visited its mailbox is due nothing more. -/
theorem Round.Fits.dueAt_next_of_head {sessions : Table SessionId Registration}
    {mailboxes : List Mailbox} {round : Round} (h : round.Fits sessions mailboxes) {count : Nat}
    (hregisters : Registers sessions count) {id : SessionId} {rest : List SessionId}
    (hpending : round.pending = id :: rest) {session : Registration}
    (hsession : sessions.get? id = some session) :
    round.next.dueAt sessions session.mailbox = [] := by
  have hnodup := h.nodup
  rw [hpending, List.nodup_cons] at hnodup
  have hnobody : rest.any (holds sessions session.mailbox) = false := by
    rw [List.any_eq_false]
    intro other hmem hholds
    obtain ⟨found, hfound, hsame⟩ := holds_iff.1 hholds
    have heq := hregisters.distinct hfound hsession hsame
    exact hnodup.1 (heq ▸ hmem)
  simp only [Round.dueAt, Round.next, hpending, List.tail_cons, hnobody, Bool.false_eq_true,
    if_false]

/-- A message of a round that gets into a mailbox is one that the hub offers. -/
theorem Coherent.offered_of_deliver (hc : hub.Coherent) {round : Round} {mailbox changed : Mailbox}
    (hround : hub.round = some round) (hat : hub.mailboxes[number]? = some mailbox)
    (haccepts : mailbox.Accepts round.delivery changed) :
    changed.offered = mailbox.offered ++ [round.delivery] := by
  have hofRound : round.delivery.ofRound = true := by
    cases hdelivery : round.delivery with
    | broadcast raw => rfl
    | answer text => simp [Delivery.ofRound, (hc.fits round hround).answer text hdelivery]
  rw [haccepts.offered (hc.bounded_at hat), List.filter_cons, if_pos hofRound, List.filter_nil]

/-- The answers of the writer carry a name, and are none of a round. -/
theorem Coherent.offered_of_reply (hc : hub.Coherent) {outcome : Outcome}
    {mailbox changed : Mailbox} (houtcome : hub.outcome = some outcome)
    (hat : hub.mailboxes[number]? = some mailbox)
    (haccepts : mailbox.Accepts (.answer outcome.text) changed) :
    changed.offered = mailbox.offered := by
  have hname : Delivery.ofRound (.answer outcome.text) = false := by
    simp only [Delivery.ofRound, decide_eq_false_iff_not]
    exact hc.named outcome houtcome
  rw [haccepts.offered (hc.bounded_at hat), List.filter_cons, hname]
  exact List.append_nil _

section

variable [Sink σ] {action : Action}

/-- Every move keeps the balance of every mailbox. -/
theorem balanced_of_move (hmove : Move hub action next) (hc : hub.Coherent)
    (h : hub.Balanced number owed) : next.Balanced number (owed ++ hub.offersIn number action) := by
  cases hmove with
  | connect id peer depth log hround => exact Balanced.connect h hround hround rfl
  | ignore id raw log hround hclosed =>
    simp only [offersIn, hclosed]
    exact h.keep rfl rfl
  | update id raw session log hround hopen hraw =>
    have howed : hub.offersIn number (.handle (.message id raw)) =
        Round.dueAt hub.sessions number
          ⟨.broadcast raw, hub.sessions.keys.filter (· ≠ id), false, []⟩ := by
      simp only [offersIn, hopen, hraw, Round.dueAt, List.any_filter, Bool.decide_and,
        Bool.decide_eq_true]
    rw [howed]
    exact h.begin hround hc.registers rfl rfl rfl
  | refuse id raw name session fault log hround hopen hraw hname =>
    have howed : hub.offersIn number (.handle (.message id raw)) =
        Round.dueAt hub.sessions number ⟨.answer Request.saveFailedTag, [id], false, []⟩ := by
      simp only [offersIn, hopen, hraw, hname, Round.dueAt, holds, List.any_cons, List.any_nil,
        Bool.or_false, Option.any_some, decide_eq_true_eq]
      simp [Except.isOk, Except.toBool]
    rw [howed]
    exact h.begin hround hc.registers rfl rfl rfl
  | request id raw name session clean log hround hopen hraw hname =>
    have howed : hub.offersIn number (.handle (.message id raw)) = [] := by
      simp [offersIn, hopen, hraw, hname, Except.isOk, Except.toBool]
    rw [howed]
    exact h.keep rfl rfl
  | disconnect id log hround =>
    refine h.keep rfl ?_
    simp only [dueAt, hround, Option.elim_none]
  | passOn round raw log hround hpending hdelivery =>
    refine h.keep rfl ?_
    rw [dueAt_of_round hround, Round.dueAt_of_done hpending]
    rfl
  | settle round text log hround hpending hdelivery =>
    refine h.keep rfl ?_
    rw [dueAt_of_round hround, Round.dueAt_of_done hpending]
    rfl
  | pass round id rest hround hpending hmailbox =>
    -- This never happens.
    obtain ⟨number, mailbox, hsome⟩ := hc.exists_mailbox hround hpending
    rw [hmailbox] at hsome
    cases hsome
  | miss round id rest other found hround hpending hmailbox hgone =>
    obtain ⟨⟨session, hsession, rfl⟩, hfound⟩ := mailboxOf?_eq_some_iff.1 hmailbox
    simp only [offersIn, List.append_nil]
    -- The receiver of the mailbox visited is gone, so the sum is about another one.
    refine ⟨h.unborn, h.sent, fun mailbox hat hattended => ?_⟩
    have hother : holds hub.sessions number id = false := by
      rw [holds_of_registered hsession, decide_eq_false_iff_not]
      rintro rfl
      rw [show hub.mailboxes[session.mailbox]? = some mailbox from hat] at hfound
      cases hfound
      rw [hgone] at hattended
      cases hattended
    have hsum := h.sum mailbox hat hattended
    rw [dueAt_of_round hround, ← Round.dueAt_next hpending hother] at hsum
    exact hsum
  | deliver _ round id rest other found changed haction hround hpending hmailbox haccepts =>
    obtain ⟨⟨session, hsession, rfl⟩, hfound⟩ := mailboxOf?_eq_some_iff.1 hmailbox
    have hnone : hub.offersIn number action = [] := by
      rcases haction with rfl | rfl
      · rfl
      · rfl
    rw [hnone]
    have hfits := hc.fits round hround
    by_cases hn : session.mailbox = number
    · -- The session at hand is the only one that is registered with the mailbox.
      subst hn
      have hsum := h.sum found hfound haccepts.attended_before
      rw [dueAt_of_round hround, Round.dueAt_of_head hpending hsession] at hsum
      have hrest : round.next.dueAt hub.sessions session.mailbox = [] :=
        hfits.dueAt_next_of_head hc.registers hpending hsession
      refine Account.receive hfound rfl ?_
      rw [dueAt_of_round rfl, hrest, hc.offered_of_deliver hround hfound haccepts,
        List.append_nil, List.append_nil, ← hsum]
    · have hother : holds hub.sessions number id = false := by
        rw [holds_of_registered hsession, decide_eq_false_iff_not]
        exact hn
      refine h.set hfound haccepts.attended_before (fun hsame => absurd hsame hn) rfl ?_
      rw [dueAt_of_round hround, ← Round.dueAt_next hpending hother]
      rfl
  | wait round log hround hpending =>
    refine h.keep rfl ?_
    rw [dueAt_of_round hround]
    rfl
  | write replies job jobs houtcome hjobs => exact h.keep rfl rfl
  | drop outcome houtcome hmailbox => exact h.keep rfl rfl
  | reply _ outcome found changed haction houtcome hfound haccepts =>
    have hnone : hub.offersIn number action = [] := by
      rcases haction with rfl | rfl
      · rfl
      · rfl
    rw [hnone]
    exact h.set hfound haccepts.attended_before
      (fun _ => hc.offered_of_reply houtcome hfound haccepts) rfl rfl
  | take other found changed hfound htake =>
    refine h.set hfound (Mailbox.attended_of_take? htake) (fun _ => ?_) rfl rfl
    rw [Mailbox.offered, Mailbox.contents_take? htake, Mailbox.offered]
  | leave other found hfound hattended =>
    have hsame : found.leave.offered = found.offered := rfl
    exact h.set hfound hattended (fun _ => hsame) rfl rfl

theorem balanced_of_run {store : Store} {archive : Archive} {sinks : List σ}
    {actions : List Action} (hrun : (start store archive sinks).run actions = some hub)
    (number : Nat) :
    hub.Balanced number ((start store archive sinks).history (offersIn number) actions) := by
  refine run_induction (motive := fun actions hub =>
    hub.Balanced number ((start store archive sinks).history (offersIn number) actions)) ?_ ?_ hrun
  · exact Account.start store archive sinks
  · intro actions hub action next hactions h _ hmove
    rw [history_concat (offersIn number) action hactions]
    exact balanced_of_move hmove (coherent_of_run hactions) h

end

end Hub

end ShowRelay
