/-
  ShowRelay.Proofs.Hub.Interleaving

  What is left of the order in which sessions were served. The hub merges the
  updates of all sessions into one store, so two runs in which every session
  sends the same may differ in the order of the merges. Each key is looked at by
  itself. If only one session sets it, all that counts is the order in which this
  session sent its own updates, and that is the same in both runs
  (`Hub.last?_of_owner`). If no key is set by two sessions, this holds of all
  keys, and the store is the first one with the parts of the sessions laid over
  it, in whatever order (`Store.get?_overlay`).

  The first hub is any hub, also one that is at work on a round.
-/

import ShowRelay.Proofs.Hub.Hearing

namespace ShowRelay

/-! ## Keys and the updates that set them -/

/-- Some of the updates give a value to a key. -/
def Delta.Sets (updates : List String) (key : String) : Prop :=
  key ∈ (updates.flatMap Delta.decode).map Prod.fst

instance (updates : List String) (key : String) : Decidable (Delta.Sets updates key) :=
  inferInstanceAs (Decidable (key ∈ (updates.flatMap Delta.decode).map Prod.fst))

theorem Delta.not_sets_iff {updates : List String} {key : String} :
    ¬ Delta.Sets updates key ↔ Entries.last? key (updates.flatMap Delta.decode) = none := by
  rw [Entries.last?_eq_none_iff, Delta.Sets, List.mem_map, not_exists]
  exact forall_congr' fun entry => not_and

theorem Delta.sets_append {xs ys : List String} {key : String} :
    Delta.Sets (xs ++ ys) key ↔ Delta.Sets xs key ∨ Delta.Sets ys key := by
  rw [Delta.Sets, List.flatMap_append, List.map_append, List.mem_append, Delta.Sets, Delta.Sets]

/-! ## Stores laid over each other -/

namespace Store

/-- The store with the settings of some others laid over it, one after the other. -/
def overlay (store : Store) (parts : List Store) : Store :=
  parts.foldl (fun store part => store.merge part.dump) store

theorem get?_merge_dump (store part : Store) (key : String) :
    (store.merge part.dump).get? key = (part.get? key).or (store.get? key) := by
  rw [get?_merge, dump, Entries.last?_eq_get? part.ascending]
  rfl

theorem get?_replay (store : Store) (updates : List String) (key : String) :
    (store.replay updates).get? key =
      (Entries.last? key (updates.flatMap Delta.decode)).or (store.get? key) := by
  rw [replay_eq_merge, get?_merge]

/-- If one part alone has a value for a key, it makes no difference in which order the parts
    are laid down, or how often. -/
theorem get?_overlay {part : SessionId → Store} {owner : SessionId} {key : String}
    (hothers : ∀ other, other ≠ owner → (part other).get? key = none)
    (owners : List SessionId) (store : Store) :
    (store.overlay (owners.map part)).get? key =
      (if owner ∈ owners then (part owner).get? key else none).or (store.get? key) := by
  induction owners generalizing store with
  | nil => rfl
  | cons first owners ih =>
    have hcons : store.overlay ((first :: owners).map part) =
        (store.merge (part first).dump).overlay (owners.map part) := rfl
    rw [hcons, ih, get?_merge_dump]
    by_cases hfirst : first = owner
    · rw [hfirst, if_pos List.mem_cons_self, ← Option.or_assoc]
      split
      · rw [Option.or_self]
      · rw [Option.none_or]
    · simp only [hothers first hfirst, Option.none_or, List.mem_cons, Ne.symm hfirst, false_or]

end Store

namespace Hub

variable {σ : Type}

/-! ## Updates and who sent them -/

/-- The session whose message a step takes up. -/
def Action.sender? : Action → Option SessionId
  | .handle (.message sender _) => some sender
  | _ => none

/-- The update that a step brings from a session, accepted or not. -/
def Action.updateFrom? (id : SessionId) : Action → Option String
  | .handle (.message sender raw) => if sender = id then Request.update? raw else none
  | _ => none

/-- The updates that some steps bring from a session, in the order in which it sent them. -/
def updatesFrom (id : SessionId) (actions : List Action) : List String :=
  actions.filterMap (Action.updateFrom? id)

/-- The update that a step accepts, with the session that it is from. -/
def sentIn (hub : Hub σ) : Action → List (SessionId × String)
  | .handle event => (hub.accepted? event).toList.map fun raw => (event.id, raw)
  | _ => []

theorem map_snd_sentIn (hub : Hub σ) (action : Action) :
    (hub.sentIn action).map Prod.snd = hub.updateIn action := by
  cases action with
  | handle event =>
    simp only [sentIn, updateIn, List.map_map]
    exact List.map_id _
  | _ => rfl

/-- What is accepted of a session is its update, if the session is open. -/
theorem heardOf_sentIn (hub : Hub σ) (action : Action) (id : SessionId) :
    heardOf id (hub.sentIn action) =
      if hub.isOpen id then (action.updateFrom? id).toList else [] := by
  cases action with
  | handle event =>
    cases event with
    | message sender raw =>
      simp only [sentIn, accepted?, Action.updateFrom?, Request.update?]
      by_cases hsender : sender = id
      · subst hsender
        cases hub.isOpen sender with
        | false => rfl
        | true =>
          cases Request.classify raw with
          | save name => simp [heardOf]
          | update text => simp [heardOf, Event.id]
      · have hnone : ∀ texts : List String,
            heardOf id (texts.map fun text => ((Event.message sender raw).id, text)) = [] := by
          intro texts
          simp [heardOf, Event.id, hsender, List.filter_map, Function.comp_def]
        rw [hnone, if_neg hsender]
        exact (ite_self _).symm
    | connect other peer depth => exact (ite_self _).symm
    | disconnect other => exact (ite_self _).symm
  | _ => exact (ite_self _).symm

/-- If one session alone sets a key, the last value that it gave to the key is the last of
    all. -/
theorem last?_of_owner {sent : List (SessionId × String)} {owner : SessionId} {key : String}
    (hothers : ∀ other, other ≠ owner → ¬ Delta.Sets (heardOf other sent) key) :
    Entries.last? key ((sent.map Prod.snd).flatMap Delta.decode) =
      Entries.last? key ((heardOf owner sent).flatMap Delta.decode) := by
  induction sent with
  | nil => rfl
  | cons entry sent ih =>
    obtain ⟨sender, raw⟩ := entry
    have hcons : ∀ id, heardOf id ((sender, raw) :: sent) =
        (if sender = id then [raw] else []) ++ heardOf id sent := by
      intro id
      simp only [heardOf, List.filter_cons, decide_eq_true_eq]
      split
      · rfl
      · rfl
    have hrest : ∀ other, other ≠ owner → ¬ Delta.Sets (heardOf other sent) key := by
      intro other hother hsets
      refine hothers other hother ?_
      rw [hcons, Delta.sets_append]
      exact .inr hsets
    rw [List.map_cons, List.flatMap_cons, Entries.last?_append, ih hrest, hcons,
      List.flatMap_append, Entries.last?_append]
    by_cases hsender : sender = owner
    · rw [if_pos hsender, List.flatMap_singleton]
    · -- Another session sent it, so it does not set the key.
      have hnot := hothers sender hsender
      rw [hcons, if_pos rfl, Delta.sets_append, not_or, Delta.not_sets_iff,
        List.flatMap_singleton] at hnot
      rw [if_neg hsender, hnot.1]
      rfl

/-- No key is set by two sessions. -/
def Apart (script : SessionId → List String) : Prop :=
  ∀ key id other, Delta.Sets (script id) key → Delta.Sets (script other) key → id = other

/-- It is enough to compare the sessions that send something. -/
theorem apart_of_senders {script : SessionId → List String} {senders : List SessionId}
    (hsenders : ∀ id, script id ≠ [] → id ∈ senders)
    (hkeys : ∀ id ∈ senders, ∀ other ∈ senders,
      ∀ key ∈ ((script id).flatMap Delta.decode).map Prod.fst,
        Delta.Sets (script other) key → id = other) : Apart script := by
  have hsends : ∀ {key id}, Delta.Sets (script id) key → id ∈ senders := by
    intro key id hsets
    apply hsenders id
    intro hnil
    rw [hnil] at hsets
    cases hsets
  intro key id other hid hother
  exact hkeys id (hsends hid) other (hsends hother) key hid hother

/-- Each key has a session that may set it, which no other does. -/
theorem Apart.exists_owner {script : SessionId → List String} (h : Apart script) (key : String) :
    ∃ owner, ∀ other, other ≠ owner → ¬ Delta.Sets (script other) key := by
  by_cases hset : ∃ id, Delta.Sets (script id) key
  · obtain ⟨owner, howner⟩ := hset
    exact ⟨owner, fun other hother hsets => hother (h key other owner hsets howner)⟩
  · exact ⟨⟨0⟩, fun other _ hsets => hset ⟨other, hsets⟩⟩

section

variable [Sink σ]

/-- The updates that a run accepts, with the sessions that they are from. -/
def sent (hub : Hub σ) (actions : List Action) : List (SessionId × String) :=
  hub.history sentIn actions

/-- Whether a session is open whenever a step is taken. -/
def staysOpen (id : SessionId) (hub : Hub σ) (actions : List Action) : Bool :=
  (hub.history (fun hub _ => [hub.isOpen id]) actions).all fun isOpen => isOpen

theorem map_snd_sent (hub : Hub σ) (actions : List Action) :
    (hub.sent actions).map Prod.snd = hub.updates actions := by
  have hpick : (hub.sent actions).map Prod.snd =
      (hub.sent actions).filterMap fun entry => some entry.2 := by
    rw [List.filterMap_eq_map']
  rw [hpick, sent, filterMap_history, updates]
  congr 1
  funext middle action
  rw [← map_snd_sentIn, List.filterMap_eq_map']

theorem updatesFrom_cons (id : SessionId) (action : Action) (actions : List Action) :
    updatesFrom id (action :: actions) =
      (action.updateFrom? id).toList ++ updatesFrom id actions := by
  rw [updatesFrom, List.filterMap_cons, updatesFrom]
  cases action.updateFrom? id with
  | none => rfl
  | some raw => rfl

/-- Nothing is accepted of a session but what it sends. -/
theorem heardOf_sent_sublist (id : SessionId) (hub : Hub σ) (actions : List Action) :
    (heardOf id (hub.sent actions)).Sublist (updatesFrom id actions) := by
  induction actions generalizing hub with
  | nil => exact List.Sublist.refl []
  | cons action actions ih =>
    rw [sent, history, heardOf_append, heardOf_sentIn, updatesFrom_cons]
    refine List.Sublist.append ?_ ?_
    · split
      · exact List.Sublist.refl _
      · exact List.nil_sublist _
    · cases hub.step action with
      | none => exact List.nil_sublist _
      | some next => exact ih next

/-- Of a session that stays open everything is accepted. -/
theorem heardOf_sent {id : SessionId} {hub last : Hub σ} {actions : List Action}
    (hrun : hub.run actions = some last) (hopen : hub.staysOpen id actions = true) :
    heardOf id (hub.sent actions) = updatesFrom id actions := by
  induction actions generalizing hub with
  | nil => rfl
  | cons action actions ih =>
    rw [run_cons] at hrun
    obtain ⟨next, hnext, hrest⟩ := Option.bind_eq_some_iff.1 hrun
    rw [staysOpen, history_cons _ _ hnext, List.all_append, Bool.and_eq_true] at hopen
    have hnow : hub.isOpen id = true := by simpa using hopen.1
    rw [sent, history_cons _ _ hnext, heardOf_append, heardOf_sentIn, if_pos hnow,
      updatesFrom_cons]
    exact congrArg _ (ih hrest hopen.2)

/-! ## The store after a run -/

/-- The store is what the accepted updates make of the first one. -/
theorem store_eq_replay {first hub : Hub σ} {actions : List Action}
    (hrun : first.run actions = some hub) :
    hub.store = first.store.replay (first.updates actions) := by
  refine run_induction (motive := fun actions hub =>
    hub.store = first.store.replay (first.updates actions)) rfl ?_ hrun
  intro actions middle action next hactions ih hstep hmove
  rw [updates, history_concat updateIn action hactions, Store.replay_append, ← updates, ← ih]
  cases action with
  | handle event =>
    simp only [step] at hstep
    split at hstep
    · cases hstep
      rw [store_handle, updateIn]
      cases middle.accepted? event with
      | none => rfl
      | some raw => rfl
    · cases hstep
  | _ => exact store_of_move hmove rfl

/-! ## Two orders -/

/-- Every session sends its script, and none that has one is closed meanwhile. -/
structure Follows (script : SessionId → List String) (first : Hub σ) (actions : List Action) :
    Prop where
  sends : ∀ id, updatesFrom id actions = script id
  stays : ∀ id, script id ≠ [] → first.staysOpen id actions = true

variable {script : SessionId → List String} {first hub : Hub σ} {actions : List Action}

/-- It is enough to look at the sessions that send something. -/
theorem follows_of_senders {senders : List SessionId}
    (hsenders : ∀ id, script id ≠ [] → id ∈ senders)
    (hactions : ∀ id ∈ actions.filterMap Action.sender?, id ∈ senders)
    (hscript : ∀ id ∈ senders,
      updatesFrom id actions = script id ∧ first.staysOpen id actions = true) :
    Follows script first actions := by
  refine ⟨fun id => ?_, fun id hid => (hscript id (hsenders id hid)).2⟩
  by_cases hid : id ∈ senders
  · exact (hscript id hid).1
  · have hnil : script id = [] := by
      by_contra hne
      exact hid (hsenders id hne)
    rw [hnil, updatesFrom, List.filterMap_eq_nil_iff]
    intro action hmem
    cases action with
    | handle event =>
      cases event with
      | message sender raw =>
        have hsender : sender ≠ id := by
          rintro rfl
          exact hid (hactions sender (List.mem_filterMap.2 ⟨_, hmem, rfl⟩))
        exact if_neg hsender
      | _ => rfl
    | _ => rfl

/-- Every session is heard in full. -/
theorem Follows.heard (h : Follows script first actions) (hrun : first.run actions = some hub)
    (id : SessionId) : heardOf id (first.sent actions) = script id := by
  by_cases hid : script id = []
  · have hsublist := heardOf_sent_sublist id first actions
    rw [h.sends, hid, List.sublist_nil] at hsublist
    rw [hsublist, hid]
  · rw [heardOf_sent hrun (h.stays id hid), h.sends]

/-- A key that one session alone sets has the last value that this session gave to it. -/
theorem Follows.get?_store (h : Follows script first actions)
    (hrun : first.run actions = some hub) {owner : SessionId} {key : String}
    (hothers : ∀ other, other ≠ owner → ¬ Delta.Sets (script other) key) :
    hub.store.get? key =
      (Entries.last? key ((script owner).flatMap Delta.decode)).or (first.store.get? key) := by
  have hsent : ∀ other, other ≠ owner → ¬ Delta.Sets (heardOf other (first.sent actions)) key := by
    intro other hother
    rw [h.heard hrun]
    exact hothers other hother
  rw [store_eq_replay hrun, Store.get?_replay, ← map_snd_sent, last?_of_owner hsent,
    h.heard hrun]

/-- Where no key is set by two sessions, what each of them alone makes of a blank store is laid
    over the first store. -/
theorem Follows.store_eq_overlay (h : Follows script first actions)
    (hrun : first.run actions = some hub) (hapart : Apart script) {senders : List SessionId}
    (hsenders : ∀ id, script id ≠ [] → id ∈ senders) :
    hub.store = first.store.overlay (senders.map fun id => Store.blank.replay (script id)) := by
  apply Table.ext_get?
  intro key
  obtain ⟨owner, hothers⟩ := hapart.exists_owner key
  have halone : ∀ id, (Store.blank.replay (script id)).get? key =
      Entries.last? key ((script id).flatMap Delta.decode) := by
    intro id
    rw [Store.get?_replay]
    exact Option.or_none
  have hnone : ∀ other, other ≠ owner → (Store.blank.replay (script other)).get? key = none := by
    intro other hother
    rw [halone, ← Delta.not_sets_iff]
    exact hothers other hother
  rw [h.get?_store hrun hothers, Store.get?_overlay hnone, halone]
  split
  · rfl
  · next hmem =>
    have hnil : script owner = [] := by
      by_contra hne
      exact hmem (hsenders owner hne)
    rw [hnil]
    rfl

/-- Two runs in which every session sends the same, in whatever order the hub takes it up. A
    key that at most one session sets has the same value after both, the last one that this
    session gave to it. If no key is set by two sessions the stores have the same text, which
    is that of the first store with what each session alone would have made laid over it. -/
theorem agree_of_interleavings {one other : Hub σ} {left right : List Action}
    (hleft : first.run left = some one) (hright : first.run right = some other)
    (hone : Follows script first left) (hother : Follows script first right) :
    (∀ key owner, (∀ id, id ≠ owner → ¬ Delta.Sets (script id) key) →
      one.store.get? key =
        (Entries.last? key ((script owner).flatMap Delta.decode)).or (first.store.get? key) ∧
      other.store.get? key = one.store.get? key) ∧
    (Apart script →
      other.store.text = one.store.text ∧
      ∀ senders : List SessionId, (∀ id, script id ≠ [] → id ∈ senders) →
        one.store.text = (first.store.overlay
          (senders.map fun id => Store.blank.replay (script id))).text) := by
  have hkeys : ∀ key owner, (∀ id, id ≠ owner → ¬ Delta.Sets (script id) key) →
      other.store.get? key = one.store.get? key := by
    intro key owner hothers
    rw [hone.get?_store hleft hothers, hother.get?_store hright hothers]
  refine ⟨fun key owner hothers => ?_, fun hapart => ⟨?_, fun senders hsenders => ?_⟩⟩
  · exact ⟨hone.get?_store hleft hothers, hkeys key owner hothers⟩
  · have hstore : other.store = one.store := by
      apply Table.ext_get?
      intro key
      obtain ⟨owner, hothers⟩ := hapart.exists_owner key
      exact hkeys key owner hothers
    rw [hstore]
  · rw [hone.store_eq_overlay hleft hapart hsenders]

/-- A script for two sessions that have no key in common. -/
def duet (id : SessionId) : List String :=
  if id = ⟨1⟩ then ["x:1 a:1", "x:2"] else if id = ⟨2⟩ then ["y:1", "y:2"] else []

/-- The sessions of the duet are served one after the other, and then by turns with a request
    for a snapshot in between. -/
theorem agree_of_duet :
    ∃ first one other : Hub Recorder,
      first = ((start (Store.ofMessage "b:0 x:0") (.ofDisk "presets" { place := .absent } 1)
        []).connect ⟨1⟩ "desk" 4).connect ⟨2⟩ "pad" 4 ∧
      first.run [.handle (.message ⟨1⟩ "x:1 a:1"), .proceed, .proceed,
        .handle (.message ⟨1⟩ "x:2"), .proceed, .proceed, .handle (.message ⟨2⟩ "y:1"), .proceed,
        .proceed, .handle (.message ⟨2⟩ "y:2"), .proceed, .proceed] = some one ∧
      first.run [.handle (.message ⟨2⟩ "y:1"), .proceed, .proceed,
        .handle (.message ⟨1⟩ "x:1 a:1"), .proceed, .proceed, .handle (.message ⟨2⟩ "save:act"),
        .handle (.message ⟨2⟩ "y:2"), .proceed, .proceed, .handle (.message ⟨1⟩ "x:2"), .proceed,
        .proceed] = some other ∧
      other.store.text = one.store.text ∧ one.store.text = "a:1 b:0 x:2 y:2" := by
  let first : Hub Recorder :=
    ((start (Store.ofMessage "b:0 x:0") (.ofDisk "presets" { place := .absent } 1) []).connect
      ⟨1⟩ "desk" 4).connect ⟨2⟩ "pad" 4
  let left : List Action := [.handle (.message ⟨1⟩ "x:1 a:1"), .proceed, .proceed,
    .handle (.message ⟨1⟩ "x:2"), .proceed, .proceed, .handle (.message ⟨2⟩ "y:1"), .proceed,
    .proceed, .handle (.message ⟨2⟩ "y:2"), .proceed, .proceed]
  let right : List Action := [.handle (.message ⟨2⟩ "y:1"), .proceed, .proceed,
    .handle (.message ⟨1⟩ "x:1 a:1"), .proceed, .proceed, .handle (.message ⟨2⟩ "save:act"),
    .handle (.message ⟨2⟩ "y:2"), .proceed, .proceed, .handle (.message ⟨1⟩ "x:2"), .proceed,
    .proceed]
  have hsenders : ∀ id, duet id ≠ [] → id ∈ [⟨1⟩, ⟨2⟩] := by
    intro id hid
    by_contra hmem
    simp only [List.mem_cons, List.not_mem_nil, or_false, not_or] at hmem
    exact hid (by rw [duet, if_neg hmem.1, if_neg hmem.2])
  have hapart : Apart duet := apart_of_senders hsenders (by decide)
  have hleft : Follows duet first left :=
    follows_of_senders hsenders (by decide) (by decide)
  have hright : Follows duet first right :=
    follows_of_senders hsenders (by decide) (by decide)
  obtain ⟨one, hone⟩ : ∃ one, first.run left = some one := Option.isSome_iff_exists.1 (by decide)
  obtain ⟨other, hother⟩ : ∃ other, first.run right = some other :=
    Option.isSome_iff_exists.1 (by decide)
  obtain ⟨hsame, hoverlay⟩ := (agree_of_interleavings hone hother hleft hright).2 hapart
  refine ⟨first, one, other, rfl, hone, hother, hsame, ?_⟩
  rw [hoverlay [⟨1⟩, ⟨2⟩] hsenders]
  rfl

end

end Hub

end ShowRelay
