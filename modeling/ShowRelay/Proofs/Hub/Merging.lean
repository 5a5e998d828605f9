/-
  ShowRelay.Proofs.Hub.Merging

  The store of a hub and its destinations have the same history. Every accepted
  update is merged when it is handled and passed on when its round is over;
  nothing else is merged or passed on (`Hub.Merged`). A destination that keeps
  what it is given can therefore bring any copy of the first store to the state
  that the hub has.
-/

import ShowRelay.Proofs.Codec
import ShowRelay.Proofs.Hub.History

namespace ShowRelay

/-- A destination after the updates of a list, one passed on after the other. -/
def Sink.givenAll {σ : Type} [Sink σ] (updates : List String) (sink : σ) : σ :=
  updates.foldl (fun sink raw => Sink.given raw sink) sink

theorem Sink.givenAll_cons {σ : Type} [Sink σ] (raw : String) (updates : List String)
    (sink : σ) :
    Sink.givenAll (raw :: updates) sink = Sink.givenAll updates (Sink.given raw sink) :=
  rfl

theorem Sink.givenAll_concat {σ : Type} [Sink σ] (updates : List String) (raw : String)
    (sink : σ) :
    Sink.givenAll (updates ++ [raw]) sink = Sink.given raw (Sink.givenAll updates sink) := by
  rw [givenAll, List.foldl_append]
  rfl

/-- A destination that keeps what it is given has kept all of it. -/
theorem Sink.received_givenAll {σ : Type} [Sink σ] {received : σ → List String}
    (hreceived : ∀ raw sink, received (Sink.forward raw sink).1 = received sink ++ [raw])
    (updates : List String) (sink : σ) :
    received (Sink.givenAll updates sink) = received sink ++ updates := by
  induction updates generalizing sink with
  | nil => exact (List.append_nil _).symm
  | cons raw updates ih =>
    rw [Sink.givenAll_cons, ih, Sink.given, hreceived, List.append_assoc, List.singleton_append]

namespace Hub

variable {σ : Type}

/-- The update that was merged and that is not passed on yet. -/
def updateInHand (hub : Hub σ) : List String :=
  hub.round.elim [] fun round => round.delivery.raw?.toList

theorem updateInHand_of_rest {hub : Hub σ} (h : hub.round = none) : hub.updateInHand = [] := by
  rw [updateInHand, h]
  rfl

theorem updateInHand_of_round {hub : Hub σ} {round : Round} (h : hub.round = some round) :
    hub.updateInHand = round.delivery.raw?.toList := by
  rw [updateInHand, h]
  rfl

variable [Sink σ] {hub next : Hub σ} {action : Action} {store : Store} {sinks : List σ}
  {accepted : List String}

/-- A hub that began with a store and destinations has accepted some updates. -/
structure Merged (store : Store) (sinks : List σ) (hub : Hub σ) (accepted : List String) :
    Prop where
  -- They were merged.
  merged : hub.store = store.replay accepted
  -- They were passed on, except for the one in hand.
  passed : ∃ passed, passed ++ hub.updateInHand = accepted ∧
    hub.sinks = sinks.map (Sink.givenAll passed)

/-- Nothing that matters was done. -/
theorem Merged.keep (h : Merged store sinks hub accepted) (hstore : next.store = hub.store)
    (hsinks : next.sinks = hub.sinks) (hhand : next.updateInHand = hub.updateInHand) :
    Merged store sinks next (accepted ++ []) := by
  rw [List.append_nil]
  refine ⟨hstore.trans h.merged, ?_⟩
  rw [hsinks, hhand]
  exact h.passed

/-- Every move that accepts an update merges it, and no other move merges anything. -/
theorem merged_of_move (hmove : Move hub action next) (h : Merged store sinks hub accepted) :
    Merged store sinks next (accepted ++ hub.updateIn action) := by
  cases hmove with
  | connect id peer depth log hround => exact h.keep rfl rfl rfl
  | ignore id raw log hround hclosed =>
    simp only [updateIn, accepted?_of_closed raw hclosed]
    exact h.keep rfl rfl rfl
  | update id raw session log hround hopen hraw =>
    simp only [updateIn, accepted?_of_open hopen hraw]
    obtain ⟨passed, hpassed, hsinks⟩ := h.passed
    refine ⟨?_, passed, ?_, hsinks⟩
    · simp only [h.merged, Store.replay, List.foldl_append]
      rfl
    · rw [← hpassed, updateInHand_of_rest hround, List.append_nil]
      rfl
  | refuse id raw name session fault log hround hopen hraw hname =>
    simp only [updateIn, accepted?_of_save id hraw]
    exact h.keep rfl rfl (updateInHand_of_rest hround).symm
  | request id raw name session clean log hround hopen hraw hname =>
    simp only [updateIn, accepted?_of_save id hraw]
    exact h.keep rfl rfl rfl
  | disconnect id log hround => exact h.keep rfl rfl rfl
  | passOn round raw log hround hpending hdelivery =>
    obtain ⟨passed, hpassed, hsinks⟩ := h.passed
    have hhand : hub.updateInHand = [raw] := by
      rw [updateInHand_of_round hround, hdelivery]
      rfl
    simp only [updateIn, List.append_nil]
    refine ⟨h.merged, passed ++ [raw], ?_, ?_⟩
    · rw [← hpassed, hhand]
      exact List.append_nil _
    · show hub.sinks.map (Sink.given raw) = sinks.map (Sink.givenAll (passed ++ [raw]))
      rw [hsinks, List.map_map]
      exact List.map_congr_left fun sink _ => (Sink.givenAll_concat passed raw sink).symm
  | settle round text log hround hpending hdelivery =>
    refine h.keep rfl rfl ?_
    rw [updateInHand_of_round hround, hdelivery]
    rfl
  | pass round id rest hround hpending hmailbox =>
    exact h.keep rfl rfl (updateInHand_of_round hround).symm
  | miss round id rest number mailbox hround hpending hmailbox hattended =>
    exact h.keep rfl rfl (updateInHand_of_round hround).symm
  | deliver _ round id rest number mailbox changed haction hround hpending hmailbox haccepts =>
    have hnone : hub.updateIn action = [] := by
      rcases haction with rfl | rfl
      · rfl
      · rfl
    rw [hnone]
    exact h.keep rfl rfl (updateInHand_of_round hround).symm
  | wait round log hround hpending =>
    exact h.keep rfl rfl (updateInHand_of_round hround).symm
  | reply _ outcome mailbox changed haction houtcome hat haccepts =>
    have hnone : hub.updateIn action = [] := by
      rcases haction with rfl | rfl
      · rfl
      · rfl
    rw [hnone]
    exact h.keep rfl rfl rfl
  | write => exact h.keep rfl rfl rfl
  | drop => exact h.keep rfl rfl rfl
  | take => exact h.keep rfl rfl rfl
  | leave => exact h.keep rfl rfl rfl

theorem merged_of_run {archive : Archive} {actions : List Action}
    (hrun : (start store archive sinks).run actions = some hub) :
    Merged store sinks hub ((start store archive sinks).updates actions) := by
  refine run_induction (motive := fun actions hub =>
    Merged store sinks hub ((start store archive sinks).updates actions)) ?_ ?_ hrun
  · exact ⟨rfl, [], rfl, (List.map_id sinks).symm⟩
  · intro actions hub action next hactions h _ hmove
    rw [updates, history_concat updateIn action hactions]
    exact merged_of_move hmove h

/-- A step that accepts no update leaves the store as it is. -/
theorem store_of_move (hmove : Move hub action next) (hnone : hub.updateIn action = []) :
    next.store = hub.store := by
  cases hmove with
  | update id raw session log hround hopen hraw =>
    simp only [updateIn, accepted?_of_open hopen hraw] at hnone
    cases hnone
  | _ => rfl

/-! ## Replaying -/

/-- The store and the destinations after any run. Every key has the last value that an
    accepted update gave to it, or else the one it began with, and steps that accept no
    update change nothing about that. Each destination was given exactly the accepted
    updates as they came, in order; only the last is missing while its round lasts.

    Whatever record is kept of what a destination was given, it brings the first store to
    the text of the last. -/
theorem replay_of_run {archive : Archive} {actions : List Action}
    (hrun : (start store archive sinks).run actions = some hub) :
    (∀ key, hub.store.get? key =
      (Entries.last? key (((start store archive sinks).updates actions).flatMap Delta.decode)).or
        (store.get? key)) ∧
    (∀ action next, hub.step action = some next → hub.updateIn action = [] →
      next.store = hub.store) ∧
    (∃ passed, passed ++ hub.updateInHand = (start store archive sinks).updates actions ∧
      hub.sinks = sinks.map (Sink.givenAll passed)) ∧
    (hub.round = none → ∀ received : σ → List String,
      (∀ raw sink, received (Sink.forward raw sink).1 = received sink ++ [raw]) →
      (∀ sink ∈ sinks, received sink = []) →
        hub.sinks.length = sinks.length ∧
        ∀ sink ∈ hub.sinks, received sink = (start store archive sinks).updates actions ∧
          (store.replay (received sink)).text = hub.store.text) := by
  have hmerged := merged_of_run hrun
  refine ⟨?_, ?_, hmerged.passed, ?_⟩
  · intro key
    rw [hmerged.merged, Store.replay_eq_merge, Store.get?_merge]
  · intro action next hstep hnone
    exact store_of_move (move_of_step hstep) hnone
  · intro hrest received hreceived hblank
    obtain ⟨passed, hpassed, hsinks⟩ := hmerged.passed
    rw [updateInHand_of_rest hrest, List.append_nil] at hpassed
    subst hpassed
    refine ⟨by rw [hsinks, List.length_map], fun sink hsink => ?_⟩
    rw [hsinks] at hsink
    obtain ⟨first, hfirst, rfl⟩ := List.mem_map.1 hsink
    have hkept : received (Sink.givenAll ((start store archive sinks).updates actions) first) =
        (start store archive sinks).updates actions := by
      rw [Sink.received_givenAll hreceived, hblank first hfirst, List.nil_append]
    exact ⟨hkept, by rw [hkept, hmerged.merged]⟩

/-- Two updates of one key, a refused name and a message of a session that is gone. -/
theorem replay_of_rehearsal :
    ∃ hub : Hub Recorder,
      (start (Store.ofMessage "x:0") (.ofDisk "presets" { place := .absent } 1) [{}, {}]).run
        [.handle (.connect ⟨1⟩ "desk" 4), .handle (.message ⟨1⟩ "x:1 y:2"), .proceed,
          .handle (.message ⟨1⟩ "save:/"), .proceed, .proceed, .handle (.message ⟨1⟩ "x:3"),
          .proceed, .handle (.disconnect ⟨1⟩), .handle (.message ⟨1⟩ "x:4")] = some hub ∧
      hub.store.get? "x" = some "3" ∧
      ∀ sink ∈ hub.sinks, sink.received = ["x:1 y:2", "x:3"] ∧
        ((Store.ofMessage "x:0").replay sink.received).text = hub.store.text := by
  obtain ⟨hstore, _, _, hreplay⟩ :=
    @replay_of_run Recorder _ _ (Store.ofMessage "x:0") [{}, {}]
      (.ofDisk "presets" { place := .absent } 1)
      [.handle (.connect ⟨1⟩ "desk" 4), .handle (.message ⟨1⟩ "x:1 y:2"), .proceed,
        .handle (.message ⟨1⟩ "save:/"), .proceed, .proceed, .handle (.message ⟨1⟩ "x:3"),
        .proceed, .handle (.disconnect ⟨1⟩), .handle (.message ⟨1⟩ "x:4")] rfl
  have hblank : ∀ sink ∈ ([{}, {}] : List Recorder), sink.received = [] := by decide
  exact ⟨_, rfl, hstore "x", (hreplay rfl Recorder.received (fun _ _ => rfl) hblank).2⟩

end Hub

end ShowRelay
