/-
  ShowRelay.Proofs.Hub.Broadcast

  What a session hears of the others. A registration lasts from the connection
  of its session until the session connects anew, is disconnected, or its
  receiver leaves (`Hub.Action.ends`). The updates that come into its mailbox are
  those that were accepted from other sessions in that time, in order and each
  once; afterwards nothing comes in any more.

  A hub drops sessions by itself too, but only those whose receivers are gone
  (`Hub.Standing` is kept by every other move).
-/

import ShowRelay.Proofs.Hub.Delivery

namespace ShowRelay.Hub

variable {σ : Type}

/-! ## Registrations -/

/-- Whether a step ends the registration of a session with a mailbox: the session is
    replaced or disconnected, or the receiver of the mailbox leaves. -/
def Action.ends (id : SessionId) (number : Nat) : Action → Bool
  | .handle (.connect other _ _) => other = id
  | .handle (.disconnect other) => other = id
  | .leave mailbox => mailbox = number
  | _ => false

/-- A session is registered with a mailbox that has a receiver. -/
structure Standing (hub : Hub σ) (id : SessionId) (peer : String) (number : Nat) : Prop where
  registered : hub.sessions.get? id = some ⟨peer, number⟩
  attended : ∃ mailbox, hub.mailboxes[number]? = some mailbox ∧ mailbox.attended = true

/-- No more updates can come into a mailbox than have come in: it has no receiver, or no
    session is registered with it. -/
def Ended (hub : Hub σ) (number : Nat) (texts : List String) : Prop :=
  ∃ mailbox, hub.mailboxes[number]? = some mailbox ∧ mailbox.broadcasts = texts ∧
    (mailbox.attended = true → ∀ id, holds hub.sessions number id = false)

variable {hub next : Hub σ} {id : SessionId} {peer : String} {number : Nat}

theorem holds_erase {sessions : Table SessionId Registration} {id : SessionId}
    (h : holds sessions number id = false) (other : SessionId) :
    holds (sessions.erase other) number id = false := by
  rw [holds, Table.get?_erase]
  split
  · rfl
  · exact h

theorem holds_foldl_erase {sessions : Table SessionId Registration} {id : SessionId}
    (h : holds sessions number id = false) (others : List SessionId) :
    holds (others.foldl Table.erase sessions) number id = false := by
  rw [holds, Table.get?_foldl_erase]
  split
  · rfl
  · exact h

/-- No other session is registered with the mailbox of an open one. -/
theorem Registers.holds_eq {sessions : Table SessionId Registration} {count : Nat}
    (h : Registers sessions count) (hsession : sessions.get? id = some ⟨peer, number⟩)
    (other : SessionId) : holds sessions number other = decide (other = id) := by
  by_cases hother : other = id
  · rw [hother, holds_of_registered hsession]
    simp
  · rw [decide_eq_false hother, holds, Option.any_eq_false]
    intro found hfound
    rw [decide_eq_false_iff_not]
    intro hsame
    exact hother (h.distinct hfound hsession hsame)

/-- A change to a mailbox is nothing to a registration unless its receiver leaves. -/
theorem Standing.set (h : hub.Standing id peer number) {other : Nat} {changed : Mailbox}
    (hchanged : other = number → changed.attended = true)
    (hsessions : next.sessions = hub.sessions)
    (hmailboxes : next.mailboxes = hub.mailboxes.set other changed) :
    next.Standing id peer number := by
  refine ⟨hsessions ▸ h.registered, ?_⟩
  rw [hmailboxes]
  obtain ⟨mailbox, hat, hattended⟩ := h.attended
  by_cases hother : other = number
  · subst hother
    have hlt := (List.getElem?_eq_some_iff.1 hat).1
    exact ⟨changed, List.getElem?_set_self hlt, hchanged rfl⟩
  · rw [List.getElem?_set_ne hother]
    exact ⟨mailbox, hat, hattended⟩

/-- A round does not remember a session whose receiver is there. -/
theorem Standing.not_failed (h : hub.Standing id peer number) {round : Round}
    (hfits : round.Fits hub.sessions hub.mailboxes) : id ∉ round.failed := by
  intro hmem
  obtain ⟨session, mailbox, hsession, hat, hgone⟩ := hfits.gone id hmem
  obtain ⟨found, hfound, hattended⟩ := h.attended
  rw [h.registered] at hsession
  cases hsession
  rw [show hub.mailboxes[number]? = some mailbox from hat] at hfound
  cases hfound
  rw [hgone] at hattended
  cases hattended

/-! ## Updates of others -/

/-- The update that a step accepts from a session other than the one given. -/
def updateOfOther (id : SessionId) (hub : Hub σ) : Action → List String
  | .handle (.message sender raw) =>
    if sender = id then [] else (hub.accepted? (.message sender raw)).toList
  | _ => []

/-- The update that the round at hand has still to offer to a mailbox. -/
def updateDue (hub : Hub σ) (number : Nat) : List String :=
  (hub.dueAt number).filterMap Delivery.raw?

/-- What a registered session is owed of updates is what others send. -/
theorem Standing.offersIn (h : hub.Standing id peer number) (hc : hub.Coherent)
    (action : Action) :
    (hub.offersIn number action).filterMap Delivery.raw? = updateOfOther id hub action := by
  cases action with
  | handle event =>
    cases event with
    | message sender raw =>
      cases hsender : hub.sessions.get? sender with
      | none =>
        simp only [Hub.offersIn, updateOfOther, hsender, accepted?_of_closed raw hsender]
        split
        · rfl
        · rfl
      | some session =>
        cases hraw : Request.classify raw with
        | save name =>
          simp only [Hub.offersIn, updateOfOther, hsender, hraw, accepted?_of_save sender hraw]
          split
          · split
            · rfl
            · rfl
          · split
            · rfl
            · rfl
        | update text =>
          have htext := Request.eq_of_classify_eq_update hraw
          subst htext
          -- The session is the only one that can be visited for the sake of this mailbox.
          have hvisited : (hub.sessions.keys.any fun other =>
              other ≠ sender ∧ holds hub.sessions number other) = decide (sender ≠ id) := by
            rw [Bool.eq_iff_iff, List.any_eq_true, decide_eq_true_iff]
            constructor
            · rintro ⟨other, _, hother⟩
              simp only [hc.registers.holds_eq h.registered, decide_eq_true_eq] at hother
              exact hother.2 ▸ Ne.symm hother.1
            · intro hne
              refine ⟨id, Table.mem_keys_iff.2 ⟨_, h.registered⟩, ?_⟩
              simp only [hc.registers.holds_eq h.registered, decide_eq_true_eq, and_true]
              exact Ne.symm hne
          simp only [Hub.offersIn, updateOfOther, hsender, hraw, hvisited,
            accepted?_of_open hsender hraw, decide_eq_true_eq]
          by_cases hsame : sender = id
          · rw [if_neg (not_not_intro hsame), if_pos hsame]
            rfl
          · rw [if_pos hsame, if_neg hsame]
            rfl
    | connect other from' depth => rfl
    | disconnect other => rfl
  | _ => rfl

section

variable [Sink σ] {action : Action}

/-- The updates that a run accepts from others, in the order in which they are handled. -/
def updatesOfOthers (id : SessionId) (hub : Hub σ) (actions : List Action) : List String :=
  hub.history (updateOfOther id) actions

/-! ## Beginning and end -/

/-- A registration begins with the connection of its session, with the next mailbox. -/
theorem standing_of_connect {depth : Nat}
    (h : hub.step (.handle (.connect id peer depth)) = some next) :
    next.Standing id peer hub.mailboxes.length := by
  cases move_of_step h with
  | connect _ _ _ log hround =>
    refine ⟨?_, { depth }, ?_, rfl⟩
    · rw [Table.get?_insert, if_pos rfl]
    · rw [List.getElem?_append_right (Nat.le_refl _), Nat.sub_self]
      rfl
  | deliver _ _ _ _ _ _ _ haction =>
    rcases haction with h | h
    · cases h
    · cases h
  | reply _ _ _ _ haction =>
    rcases haction with h | h
    · cases h
    · cases h

/-- A registration stands until a step ends it. -/
theorem standing_of_move (hmove : Move hub action next) (hc : hub.Coherent)
    (hkept : action.ends id number = false) (h : hub.Standing id peer number) :
    next.Standing id peer number := by
  cases hmove with
  | connect other from' depth log hround =>
    have hne : ¬ id = other := Ne.symm (of_decide_eq_false hkept)
    obtain ⟨mailbox, hat, hattended⟩ := h.attended
    refine ⟨?_, mailbox, ?_, hattended⟩
    · rw [Table.get?_insert, if_neg hne]
      exact h.registered
    · exact (List.getElem?_append_left (List.getElem?_eq_some_iff.1 hat).1).trans hat
  | disconnect other log hround =>
    have hne : ¬ id = other := Ne.symm (of_decide_eq_false hkept)
    refine ⟨?_, h.attended⟩
    rw [Table.get?_erase, if_neg hne]
    exact h.registered
  | passOn round raw log hround hpending hdelivery =>
    -- Only sessions whose receiver is gone are dropped.
    refine ⟨?_, h.attended⟩
    rw [Table.get?_foldl_erase, if_neg (h.not_failed (hc.fits round hround))]
    exact h.registered
  | settle round text log hround hpending hdelivery =>
    refine ⟨?_, h.attended⟩
    rw [Table.get?_foldl_erase, if_neg (h.not_failed (hc.fits round hround))]
    exact h.registered
  | deliver _ round other rest held mailbox changed haction hround hpending hmailbox haccepts =>
    exact h.set (fun _ => haccepts.attended_after) rfl rfl
  | reply _ outcome mailbox changed haction houtcome hat haccepts =>
    exact h.set (fun _ => haccepts.attended_after) rfl rfl
  | take held mailbox changed hat htake =>
    have hattended : changed.attended = true := by
      rw [Mailbox.attended_take? htake]
      exact Mailbox.attended_of_take? htake
    exact h.set (fun _ => hattended) rfl rfl
  | leave held mailbox hat hattended =>
    have hne : held ≠ number := of_decide_eq_false hkept
    exact h.set (fun hsame => absurd hsame hne) rfl rfl
  | _ => exact ⟨h.registered, h.attended⟩

/-- What comes into a mailbox whose registration has ended is no update. -/
theorem ended_of_move (hmove : Move hub action next) (hc : hub.Coherent) {texts : List String}
    (h : hub.Ended number texts) : next.Ended number texts := by
  obtain ⟨mailbox, hat, htexts, hclosed⟩ := h
  have hlt := (List.getElem?_eq_some_iff.1 hat).1
  -- The mailbox that a step changes is another one, or changes in what is no update.
  have hset : ∀ {other : Nat} {found changed : Mailbox} (middle : Hub σ),
      hub.mailboxes[other]? = some found → found.attended = true →
      (other = number → changed.broadcasts = found.broadcasts) →
      middle.sessions = hub.sessions → middle.mailboxes = hub.mailboxes.set other changed →
        middle.Ended number texts := by
    intro other found changed middle hfound hattended hsame hsessions hmailboxes
    rw [Ended, hmailboxes, hsessions]
    by_cases hother : other = number
    · subst hother
      rw [hat] at hfound
      cases hfound
      exact ⟨changed, List.getElem?_set_self hlt, (hsame rfl).trans htexts,
        fun _ => hclosed hattended⟩
    · exact ⟨mailbox, (List.getElem?_set_ne hother).trans hat, htexts, hclosed⟩
  cases hmove with
  | connect id peer depth log hround =>
    refine ⟨mailbox, (List.getElem?_append_left hlt).trans hat, htexts, fun hattended other => ?_⟩
    rw [holds, Table.get?_insert]
    split
    · rw [Option.any_some, decide_eq_false_iff_not]
      exact Nat.ne_of_gt hlt
    · exact hclosed hattended other
  | disconnect id log hround =>
    exact ⟨mailbox, hat, htexts, fun hattended other => holds_erase (hclosed hattended other) id⟩
  | passOn round raw log hround hpending hdelivery =>
    exact ⟨mailbox, hat, htexts,
      fun hattended other => holds_foldl_erase (hclosed hattended other) round.failed⟩
  | settle round text log hround hpending hdelivery =>
    exact ⟨mailbox, hat, htexts,
      fun hattended other => holds_foldl_erase (hclosed hattended other) round.failed⟩
  | deliver _ round id rest held found changed haction hround hpending hmailbox haccepts =>
    obtain ⟨⟨session, hsession, rfl⟩, hfound⟩ := mailboxOf?_eq_some_iff.1 hmailbox
    refine hset _ hfound haccepts.attended_before (fun hsame => ?_) rfl rfl
    subst hsame
    rw [hat] at hfound
    cases hfound
    -- Nobody is registered with the mailbox any more, so no round can visit it.
    have hnobody := hclosed haccepts.attended_before id
    rw [holds_iff.2 ⟨session, hsession, rfl⟩] at hnobody
    cases hnobody
  | reply _ outcome found changed haction houtcome hfound haccepts =>
    refine hset _ hfound haccepts.attended_before (fun _ => ?_) rfl rfl
    rw [Mailbox.broadcasts, haccepts.contents (hc.bounded_at hfound), List.filterMap_append]
    exact List.append_nil _
  | take held found changed hfound htake =>
    refine hset _ hfound (Mailbox.attended_of_take? htake) (fun _ => ?_) rfl rfl
    rw [Mailbox.broadcasts, Mailbox.contents_take? htake, Mailbox.broadcasts]
  | leave held found hfound hattended =>
    have hsame : found.leave.broadcasts = found.broadcasts := rfl
    exact hset _ hfound hattended (fun _ => hsame) rfl rfl
  | _ => exact ⟨mailbox, hat, htexts, hclosed⟩

theorem ended_of_run {actions : List Action} (hrun : hub.run actions = some next)
    (hc : hub.Coherent) {texts : List String} (h : hub.Ended number texts) :
    next.Ended number texts := by
  refine run_induction (motive := fun _ next => next.Ended number texts) h ?_ hrun
  intro actions middle action next hactions h _ hmove
  exact ended_of_move hmove (hc.run hactions) h

/-- A step that ends a registration puts nothing into its mailbox. -/
theorem Standing.ended (h : hub.Standing id peer number) (hc : hub.Coherent) {mailbox : Mailbox}
    (hat : hub.mailboxes[number]? = some mailbox) (hends : action.ends id number = true)
    (hmove : Move hub action next) : next.Ended number mailbox.broadcasts := by
  have hlt := (List.getElem?_eq_some_iff.1 hat).1
  have hothers := hc.registers.holds_eq h.registered
  cases hmove with
  | connect other from' depth log hround =>
    have hsame : other = id := of_decide_eq_true hends
    refine ⟨mailbox, (List.getElem?_append_left hlt).trans hat, rfl, fun _ another => ?_⟩
    rw [holds, Table.get?_insert, hsame]
    split
    · rw [Option.any_some, decide_eq_false_iff_not]
      exact Nat.ne_of_gt hlt
    · next hanother =>
      rw [← holds, hothers, decide_eq_false_iff_not]
      exact hanother
  | disconnect other log hround =>
    have hsame : other = id := of_decide_eq_true hends
    refine ⟨mailbox, hat, rfl, fun _ another => ?_⟩
    rw [holds, Table.get?_erase, hsame]
    split
    · rfl
    · next hanother =>
      rw [← holds, hothers, decide_eq_false_iff_not]
      exact hanother
  | leave held found hfound hattended =>
    have hsame : held = number := of_decide_eq_true hends
    subst hsame
    rw [hat] at hfound
    cases hfound
    exact ⟨mailbox.leave, List.getElem?_set_self hlt, rfl, fun hgone => by cases hgone⟩
  | deliver _ round other rest held found changed haction =>
    rcases haction with rfl | rfl
    · cases hends
    · cases hends
  | reply _ outcome found changed haction =>
    rcases haction with rfl | rfl
    · cases hends
    · cases hends
  | _ => cases hends

/-! ## What comes in -/

/-- As long as a registration stands, its mailbox is owed what others send. -/
theorem Standing.run (h : hub.Standing id peer number) (hc : hub.Coherent)
    {actions : List Action} (hrun : hub.run actions = some next)
    (hkept : ∀ action ∈ actions, action.ends id number = false) :
    next.Standing id peer number ∧
      (hub.history (Hub.offersIn number) actions).filterMap Delivery.raw? =
        hub.updatesOfOthers id actions := by
  refine run_induction (motive := fun actions next =>
    (∀ action ∈ actions, action.ends id number = false) → next.Standing id peer number ∧
      (hub.history (Hub.offersIn number) actions).filterMap Delivery.raw? =
        hub.updatesOfOthers id actions) ?_ ?_ hrun hkept
  · intro _
    exact ⟨h, rfl⟩
  · intro actions middle action next hactions ih _ hmove hkept
    have hmiddle := hc.run hactions
    obtain ⟨hstanding, howed⟩ := ih fun other hother => hkept other (List.mem_append_left _ hother)
    have hlast := hkept action (List.mem_append_right _ (List.mem_singleton_self action))
    refine ⟨standing_of_move hmove hmiddle hlast hstanding, ?_⟩
    rw [updatesOfOthers, history_concat _ action hactions, history_concat _ action hactions,
      List.filterMap_append, howed, hstanding.offersIn hmiddle]
    rfl

/-- The updates in the mailbox of a registration. While it stands they are those that were
    accepted from other sessions since it began, without the one that the round at hand has
    still to offer; and once it has ended there are never more of them.

    Its session stays open for as long as the registration is not ended from outside, so
    that whom a round drops makes no difference to others. -/
theorem broadcasts_of_registration {store : Store} {archive : Archive} {sinks : List σ}
    {before during : List Action} {earlier hub : Hub σ} {id : SessionId} {peer : String}
    {depth : Nat} (hbefore : (start store archive sinks).run before = some earlier)
    (hduring : earlier.run (.handle (.connect id peer depth) :: during) = some hub)
    (hkept : ∀ action ∈ during, action.ends id earlier.mailboxes.length = false) :
    ∃ mailbox, hub.mailboxes[earlier.mailboxes.length]? = some mailbox ∧
      hub.sessions.get? id = some ⟨peer, earlier.mailboxes.length⟩ ∧
      mailbox.broadcasts ++ hub.updateDue earlier.mailboxes.length =
        earlier.updatesOfOthers id (.handle (.connect id peer depth) :: during) ∧
      (hub.round = none → hub.updateDue earlier.mailboxes.length = []) ∧
      ∀ ending after later, ending.ends id earlier.mailboxes.length = true →
        hub.run (ending :: after) = some later →
          ∃ last, later.mailboxes[earlier.mailboxes.length]? = some last ∧
            last.broadcasts = mailbox.broadcasts := by
  -- The registration begins at the step that connects its session.
  rw [run_cons] at hduring
  obtain ⟨first, hfirst, hrest⟩ := Option.bind_eq_some_iff.1 hduring
  have hactions : earlier.run (.handle (.connect id peer depth) :: during) = some hub := by
    rw [run_cons, hfirst]
    exact hrest
  have hall : (start store archive sinks).run
      (before ++ .handle (.connect id peer depth) :: during) = some hub := by
    rw [run_append, hbefore]
    exact hactions
  have hcoherent : first.Coherent :=
    coherent_of_move (move_of_step hfirst) (coherent_of_run hbefore)
  obtain ⟨hstanding, hupdates⟩ := (standing_of_connect hfirst).run hcoherent hrest hkept
  obtain ⟨mailbox, hat, hattended⟩ := hstanding.attended
  -- Before that its mailbox was owed nothing.
  have hnothing := (balanced_of_run hbefore earlier.mailboxes.length).unborn (Nat.le_refl _)
  have hsum := (balanced_of_run hall earlier.mailboxes.length).sum mailbox hat hattended
  rw [history_append _ _ hbefore, hnothing, List.nil_append, history_cons _ _ hfirst] at hsum
  refine ⟨mailbox, hat, hstanding.registered, ?_, ?_, ?_⟩
  · have hconnect : earlier.updatesOfOthers id (.handle (.connect id peer depth) :: during) =
        first.updatesOfOthers id during := history_cons _ _ hfirst
    rw [hconnect, ← hupdates, mailbox.broadcasts_eq_offered, updateDue, ← List.filterMap_append,
      hsum]
    rfl
  · intro hrest
    rw [updateDue, dueAt_of_rest hrest]
    rfl
  · intro ending after later hends hlater
    rw [run_cons] at hlater
    obtain ⟨next, hnext, hafter⟩ := Option.bind_eq_some_iff.1 hlater
    have hc : hub.Coherent := coherent_of_run hall
    have hmove := move_of_step hnext
    have hended := hstanding.ended hc hat hends hmove
    obtain ⟨last, hlast, hsame, _⟩ := ended_of_run hafter (coherent_of_move hmove hc) hended
    exact ⟨last, hlast, hsame⟩

/-- Three sessions, of which the second has lost its receiver before the first update: the
    third gets what the first sends, and nothing of what the second and itself send. -/
theorem broadcasts_of_trio :
    ∃ (earlier hub : Hub Recorder) (mailbox : Mailbox),
      (start Store.blank (.ofDisk "presets" { place := .absent } 1) []).run
        [.handle (.connect ⟨1⟩ "desk" 4), .handle (.connect ⟨2⟩ "pad" 4)] = some earlier ∧
      earlier.run [.handle (.connect ⟨3⟩ "wing" 4), .leave 1, .handle (.message ⟨1⟩ "x:1"),
        .proceed, .proceed, .proceed, .handle (.message ⟨2⟩ "z:3"),
        .handle (.message ⟨3⟩ "y:2"), .proceed, .proceed] = some hub ∧
      hub.mailboxes[2]? = some mailbox ∧ mailbox.broadcasts = ["x:1"] := by
  obtain ⟨mailbox, hat, _, hsum, hrest, _⟩ :=
    @broadcasts_of_registration Recorder _ Store.blank (.ofDisk "presets" { place := .absent } 1) []
      [.handle (.connect ⟨1⟩ "desk" 4), .handle (.connect ⟨2⟩ "pad" 4)]
      [.leave 1, .handle (.message ⟨1⟩ "x:1"), .proceed, .proceed, .proceed,
        .handle (.message ⟨2⟩ "z:3"), .handle (.message ⟨3⟩ "y:2"), .proceed, .proceed]
      _ _ ⟨3⟩ "wing" 4 rfl rfl (by decide)
  refine ⟨_, _, mailbox, rfl, rfl, hat, ?_⟩
  rw [hrest rfl, List.append_nil] at hsum
  exact hsum

end

end ShowRelay.Hub
