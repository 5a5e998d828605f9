/-
  ShowRelay.Proofs.Hub.History

  Runs of a hub seen from outside. An observer looks at each step together with
  the hub that takes it, and the history of a run is all that it writes down
  (`Hub.history`). Two observers are of general use: the one of the updates
  that the hub accepts and the one of the snapshots that it is asked for. What an
  observer has written down can be found again at a step (`Hub.exists_taken`).

  What holds of every run is proved by `Hub.run_induction`, one move at a time
  from the first hub on.
-/

import ShowRelay.Proofs.Hub.Move
import Mathlib.Data.List.Induction

namespace ShowRelay.Hub

variable {σ α : Type}

/-! ## What one event is accepted as -/

theorem accepted?_of_closed {hub : Hub σ} {id : SessionId} (raw : String)
    (h : hub.sessions.get? id = none) : hub.accepted? (.message id raw) = none := by
  have hopen : hub.isOpen id = false := by rw [isOpen, Table.contains, h]; rfl
  simp only [accepted?, hopen]

theorem accepted?_of_open {hub : Hub σ} {id : SessionId} {session : Registration} {raw : String}
    (h : hub.sessions.get? id = some session) (hraw : Request.classify raw = .update raw) :
    hub.accepted? (.message id raw) = some raw := by
  have hopen : hub.isOpen id = true := by rw [isOpen, Table.contains, h]; rfl
  simp only [accepted?, hopen, hraw]

theorem accepted?_of_save {hub : Hub σ} {raw name : String} (id : SessionId)
    (hraw : Request.classify raw = .save name) : hub.accepted? (.message id raw) = none := by
  simp only [accepted?, hraw]
  cases hub.isOpen id with
  | true => rfl
  | false => rfl

variable [Sink σ]

/-! ## Runs -/

theorem run_nil (hub : Hub σ) : hub.run [] = some hub := rfl

theorem run_singleton (hub : Hub σ) (action : Action) : hub.run [action] = hub.step action := by
  simp only [run, List.foldlM_cons, List.foldlM_nil]
  cases hub.step action with
  | none => rfl
  | some next => rfl

theorem run_cons (hub : Hub σ) (action : Action) (actions : List Action) :
    hub.run (action :: actions) = (hub.step action).bind fun next => next.run actions := by
  rw [← List.singleton_append, run_append, run_singleton]

theorem run_concat (hub : Hub σ) (actions : List Action) (action : Action) :
    hub.run (actions ++ [action]) = (hub.run actions).bind fun next => next.step action := by
  rw [run_append]
  congr 1
  funext next
  exact run_singleton next action

/-- What holds of the first hub and is kept by every move holds after every run. -/
theorem run_induction {first : Hub σ} {motive : List Action → Hub σ → Prop}
    (hstart : motive [] first)
    (hmove : ∀ {actions hub action next}, first.run actions = some hub → motive actions hub →
      hub.step action = some next → Move hub action next → motive (actions ++ [action]) next)
    {actions : List Action} {hub : Hub σ} (hrun : first.run actions = some hub) :
    motive actions hub := by
  induction actions using List.reverseRecOn generalizing hub with
  | nil =>
    rw [run_nil] at hrun
    cases hrun
    exact hstart
  | append_singleton actions action ih =>
    rw [run_concat] at hrun
    obtain ⟨middle, hmiddle, hstep⟩ := Option.bind_eq_some_iff.1 hrun
    exact hmove hmiddle (ih hmiddle) hstep (move_of_step hstep)

/-! ## Histories -/

/-- What an observer writes down in a run, for as long as its steps can be taken. -/
def history (observe : Hub σ → Action → List α) (hub : Hub σ) : List Action → List α
  | [] => []
  | action :: actions =>
    observe hub action ++ (hub.step action).elim [] fun next => next.history observe actions

theorem history_cons (observe : Hub σ → Action → List α) {hub next : Hub σ} {action : Action}
    (actions : List Action) (h : hub.step action = some next) :
    hub.history observe (action :: actions) =
      observe hub action ++ next.history observe actions := by
  simp only [history, h, Option.elim_some]

theorem history_append (observe : Hub σ → Action → List α) {hub middle : Hub σ}
    {first : List Action} (second : List Action) (hfirst : hub.run first = some middle) :
    hub.history observe (first ++ second) =
      hub.history observe first ++ middle.history observe second := by
  induction first generalizing hub with
  | nil =>
    rw [run_nil] at hfirst
    cases hfirst
    rfl
  | cons action actions ih =>
    rw [run_cons] at hfirst
    obtain ⟨next, hnext, hactions⟩ := Option.bind_eq_some_iff.1 hfirst
    rw [List.cons_append, history_cons observe _ hnext, history_cons observe _ hnext, ih hactions,
      List.append_assoc]

theorem history_concat (observe : Hub σ → Action → List α) {hub middle : Hub σ}
    {actions : List Action} (action : Action) (hactions : hub.run actions = some middle) :
    hub.history observe (actions ++ [action]) =
      hub.history observe actions ++ observe middle action := by
  have hlast : middle.history observe [action] = observe middle action := by
    simp only [history]
    cases middle.step action with
    | none => exact List.append_nil _
    | some next => exact List.append_nil _
  rw [history_append observe [action] hactions, hlast]

/-- What is written down is written down at some step. -/
theorem exists_of_mem_history {observe : Hub σ → Action → List α} {hub : Hub σ}
    {actions : List Action} {entry : α} (h : entry ∈ hub.history observe actions) :
    ∃ middle, ∃ action ∈ actions, entry ∈ observe middle action := by
  induction actions generalizing hub with
  | nil => cases h
  | cons action actions ih =>
    rcases List.mem_append.1 h with h | h
    · exact ⟨hub, action, List.mem_cons_self, h⟩
    · cases hnext : hub.step action with
      | none =>
        rw [hnext] at h
        cases h
      | some next =>
        rw [hnext] at h
        obtain ⟨middle, other, hmem, hat⟩ := ih h
        exact ⟨middle, other, List.mem_cons_of_mem action hmem, hat⟩

/-- A run of steps of which nothing is written down. -/
theorem history_eq_nil {observe : Hub σ → Action → List α} {actions : List Action} (hub : Hub σ)
    (h : ∀ action ∈ actions, ∀ hub, observe hub action = []) :
    hub.history observe actions = [] := by
  apply List.eq_nil_iff_forall_not_mem.2
  intro entry hentry
  obtain ⟨middle, action, hmem, hat⟩ := exists_of_mem_history hentry
  rw [h action hmem middle] at hat
  cases hat

/-- Picking from a history is picking from what is written down at each step. -/
theorem filterMap_history {β : Type} (observe : Hub σ → Action → List α) (pick : α → Option β)
    (hub : Hub σ) (actions : List Action) :
    (hub.history observe actions).filterMap pick =
      hub.history (fun hub action => (observe hub action).filterMap pick) actions := by
  induction actions generalizing hub with
  | nil => rfl
  | cons action actions ih =>
    rw [history, history, List.filterMap_append]
    cases hub.step action with
    | none => rfl
    | some next => rw [Option.elim_some, Option.elim_some, ih]

/-! ## Steps of a run -/

/-- A step of a run, with the steps before it and the hub that takes it. -/
structure Taken (first : Hub σ) (actions before : List Action) (middle : Hub σ)
    (action : Action) : Prop where
  within : before ++ [action] <+: actions
  reached : first.run before = some middle

theorem Taken.cons {first next middle : Hub σ} {actions before : List Action}
    {action other : Action} (h : Taken next actions before middle action)
    (hstep : first.step other = some next) :
    Taken first (other :: actions) (other :: before) middle action := by
  refine ⟨List.prefix_cons_inj _ |>.2 h.within, ?_⟩
  rw [run_cons, hstep]
  exact h.reached

/-- What is written down at a step of a run belongs to its history. -/
theorem Taken.mem_history {observe : Hub σ → Action → List α} {first middle : Hub σ}
    {actions before : List Action} {action : Action} (h : Taken first actions before middle action)
    {entry : α} (hentry : entry ∈ observe middle action) :
    entry ∈ first.history observe actions := by
  obtain ⟨after, hactions⟩ := h.within
  rw [← hactions, List.append_assoc, history_append observe _ h.reached]
  exact List.mem_append_right _ (List.mem_append_left _ hentry)

/-- If at most one thing is written down at each step, every entry has its step, and the
    entries before it are those of the steps before. -/
theorem exists_taken {observe : Hub σ → Action → List α}
    (hone : ∀ hub action, (observe hub action).length ≤ 1) {first : Hub σ}
    {actions : List Action} {earlier later : List α} {entry : α}
    (h : first.history observe actions = earlier ++ entry :: later) :
    ∃ before middle action, Taken first actions before middle action ∧
      first.history observe before = earlier ∧ observe middle action = [entry] := by
  induction actions generalizing first earlier with
  | nil =>
    have hnil := congrArg List.length h
    simp [history] at hnil
  | cons action actions ih =>
    -- The entry is of a later step, and those of this step come before the others.
    have hlater : ∀ {earlier : List α},
        ((first.step action).elim [] fun next => next.history observe actions) =
          earlier ++ entry :: later →
        ∃ before middle other, Taken first (action :: actions) before middle other ∧
          first.history observe before = observe first action ++ earlier ∧
            observe middle other = [entry] := by
      intro earlier hrest
      cases hnext : first.step action with
      | none =>
        rw [hnext] at hrest
        have hnil := congrArg List.length hrest
        simp at hnil
      | some next =>
        rw [hnext] at hrest
        obtain ⟨before, middle, other, htaken, hbefore, hentry⟩ := ih hrest
        refine ⟨action :: before, middle, other, htaken.cons hnext, ?_, hentry⟩
        rw [history_cons observe before hnext, hbefore]
    rw [history] at h
    cases hnow : observe first action with
    | nil =>
      rw [hnow, List.nil_append] at h
      have hfound := hlater h
      rwa [hnow] at hfound
    | cons written others =>
      have hlength := hone first action
      rw [hnow, List.length_cons] at hlength
      have hothers : others = [] := List.eq_nil_of_length_eq_zero (by omega)
      subst hothers
      rw [hnow, List.singleton_append] at h
      cases earlier with
      | nil =>
        rw [List.nil_append, List.cons.injEq] at h
        obtain ⟨rfl, -⟩ := h
        exact ⟨[], first, action, ⟨List.prefix_append [action] actions, rfl⟩, rfl, hnow⟩
      | cons front earlier =>
        rw [List.cons_append, List.cons.injEq] at h
        obtain ⟨rfl, hrest⟩ := h
        have hfound := hlater hrest
        rwa [hnow] at hfound

/-! ## Accepted updates -/

/-- The update that a step accepts. -/
def updateIn (hub : Hub σ) : Action → List String
  | .handle event => (hub.accepted? event).toList
  | _ => []

/-- The updates that a run accepts, in the order in which they are handled. -/
def updates (hub : Hub σ) (actions : List Action) : List String := hub.history updateIn actions

/-- Only updates are accepted as such. -/
theorem classify_of_mem_updates {hub : Hub σ} {actions : List Action} {raw : String}
    (h : raw ∈ hub.updates actions) : Request.classify raw = .update raw := by
  obtain ⟨middle, action, _, hraw⟩ := exists_of_mem_history h
  cases action with
  | handle event =>
    cases event with
    | message id text =>
      simp only [updateIn, accepted?, Option.mem_toList] at hraw
      split at hraw
      · next hclass =>
        cases hraw
        have heq := Request.eq_of_classify_eq_update hclass
        rw [heq]
        exact heq ▸ hclass
      · cases hraw
    | connect id peer depth => cases hraw
    | disconnect id => cases hraw
  | _ => cases hraw

end ShowRelay.Hub
