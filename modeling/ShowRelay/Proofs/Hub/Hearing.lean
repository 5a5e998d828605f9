/-
  ShowRelay.Proofs.Hub.Hearing

  What a hub accepts of what it takes up. Messages are accepted while their
  session is open. If a session is opened by the first of its events only, and
  never again after it was dropped, the accepted messages are a beginning of
  those that were taken up from it (`Hub.Hearing`).
-/

import ShowRelay.Proofs.Hub.Exchange

namespace ShowRelay

namespace Hub

/-! ## Lists of events -/

/-- The events of a session among all that were taken up. -/
def eventsOf (id : SessionId) (events : List Event) : List Event :=
  events.filter fun event => event.id = id

/-- The messages that the events of a session bring. -/
def textsOf (id : SessionId) (events : List Event) : List String :=
  (eventsOf id events).filterMap Event.raw?

/-- The messages of a session among all that were accepted. -/
def heardOf (id : SessionId) (heard : List (SessionId × String)) : List String :=
  (heard.filter fun entry => entry.1 = id).map Prod.snd

theorem eventsOf_append (id : SessionId) (xs ys : List Event) :
    eventsOf id (xs ++ ys) = eventsOf id xs ++ eventsOf id ys := List.filter_append xs ys

theorem textsOf_append (id : SessionId) (xs ys : List Event) :
    textsOf id (xs ++ ys) = textsOf id xs ++ textsOf id ys := by
  rw [textsOf, eventsOf_append, List.filterMap_append, textsOf, textsOf]

theorem heardOf_append (id : SessionId) (xs ys : List (SessionId × String)) :
    heardOf id (xs ++ ys) = heardOf id xs ++ heardOf id ys := by
  rw [heardOf, List.filter_append, List.map_append, heardOf, heardOf]

theorem eventsOf_self (event : Event) : eventsOf event.id [event] = [event] := by
  simp [eventsOf]

theorem eventsOf_other {event : Event} {id : SessionId} (h : event.id ≠ id) :
    eventsOf id [event] = [] := by
  simp [eventsOf, h]

theorem textsOf_self (event : Event) : textsOf event.id [event] = event.raw?.toList := by
  rw [textsOf, eventsOf_self]
  cases h : event.raw? with
  | none => rw [List.filterMap_cons_none h, List.filterMap_nil, Option.toList_none]
  | some raw => rw [List.filterMap_cons_some h, List.filterMap_nil, Option.toList_some]

theorem textsOf_other {event : Event} {id : SessionId} (h : event.id ≠ id) :
    textsOf id [event] = [] := by
  rw [textsOf, eventsOf_other h, List.filterMap_nil]

variable {σ : Type}

theorem heardOf_self (hub : Hub σ) (event : Event) :
    heardOf event.id (hub.heard? event).toList =
      if hub.isOpen event.id then event.raw?.toList else [] := by
  cases event with
  | message id raw =>
    show heardOf id (if hub.isOpen id then some (id, raw) else none).toList =
      if hub.isOpen id then [raw] else []
    by_cases hopen : hub.isOpen id = true
    · rw [if_pos hopen, if_pos hopen]
      simp [heardOf]
    · rw [if_neg hopen, if_neg hopen]
      rfl
  | _ => exact (ite_self _).symm

theorem heardOf_other (hub : Hub σ) {event : Event} {id : SessionId} (h : event.id ≠ id) :
    heardOf id (hub.heard? event).toList = [] := by
  cases event with
  | message other raw =>
    have hother : other ≠ id := h
    simp only [heard?]
    split
    · simp [heardOf, hother]
    · rfl
  | _ => rfl

/-- An event opens and closes its own session only. -/
theorem contains_handle (hub : Hub σ) {event : Event} {id : SessionId} (h : event.id ≠ id) :
    (hub.handle event).sessions.contains id = hub.sessions.contains id := by
  cases event with
  | connect other peer depth =>
    have hother : id ≠ other := Ne.symm h
    rw [sessions_connect, Table.contains, Table.get?_insert, if_neg hother, Table.contains]
  | message other raw => rw [(hub.apart_of_message other raw).1]
  | disconnect other =>
    have hother : id ≠ other := Ne.symm h
    rw [sessions_disconnect, Table.contains, Table.get?_erase, if_neg hother, Table.contains]

/-! ## Accepted messages -/

/-- What the hub has accepted of the events that it has taken up, where `sessions` are the
    open ones. -/
structure Hearing (sessions : Table SessionId Registration) (handled : List Event)
    (heard : List (SessionId × String)) : Prop where
  order : ∀ id, heardOf id heard <+: textsOf id handled
  -- Nothing is missed while the session is open.
  whole : ∀ id, sessions.contains id = true → heardOf id heard = textsOf id handled
  -- A session is opened by an event of its own.
  unopened : ∀ id, eventsOf id handled = [] → sessions.contains id = false

variable {sessions fewer : Table SessionId Registration} {handled : List Event}
  {heard : List (SessionId × String)}

/-- Sessions may be closed at any time. -/
theorem Hearing.mono (h : Hearing sessions handled heard)
    (hfewer : ∀ id, fewer.contains id = true → sessions.contains id = true) :
    Hearing fewer handled heard := by
  refine ⟨h.order, fun id hopen => h.whole id (hfewer id hopen), fun id hnone => ?_⟩
  have hclosed := h.unopened id hnone
  cases hopen : fewer.contains id with
  | false => rfl
  | true =>
    rw [hfewer id hopen] at hclosed
    cases hclosed

/-- The hub takes up an event. If that is a connection it has to be the first of its
    session. -/
theorem Hearing.handle {hub : Hub σ} (h : Hearing hub.sessions handled heard) (event : Event)
    (hfirst : ∀ peer depth, event = .connect event.id peer depth →
      eventsOf event.id handled = []) :
    Hearing (hub.handle event).sessions (handled ++ [event])
      (heard ++ (hub.heard? event).toList) := by
  refine ⟨fun id => ?_, fun id hopen => ?_, fun id hnone => ?_⟩
  · rw [heardOf_append, textsOf_append]
    by_cases hid : event.id = id
    · rw [← hid, heardOf_self, textsOf_self]
      split
      · next hopen =>
        have hwhole := h.whole event.id hopen
        exact hwhole ▸ List.prefix_rfl
      · rw [List.append_nil]
        exact (h.order event.id).trans (List.prefix_append _ _)
    · rw [heardOf_other hub hid, textsOf_other hid, List.append_nil, List.append_nil]
      exact h.order id
  · rw [heardOf_append, textsOf_append]
    by_cases hid : event.id = id
    · rw [← hid, heardOf_self, textsOf_self]
      rw [← hid] at hopen
      cases event with
      | connect other peer depth =>
        -- Nothing was taken up, so nothing was accepted.
        have hevents : eventsOf other handled = [] := hfirst peer depth rfl
        have hnone : textsOf other handled = [] := by
          rw [textsOf, hevents, List.filterMap_nil]
        have horder := h.order other
        rw [hnone, List.prefix_nil] at horder
        simp only [Event.id, Event.raw?, Option.toList_none, hnone, horder, List.nil_append]
        exact ite_self _
      | message other raw =>
        rw [(hub.apart_of_message other raw).1] at hopen
        have hthere : hub.isOpen other = true := hopen
        rw [h.whole _ hopen]
        exact congrArg _ (if_pos hthere)
      | disconnect other =>
        rw [sessions_disconnect, Table.contains, Table.get?_erase] at hopen
        simp [Event.id] at hopen
    · rw [contains_handle hub hid] at hopen
      rw [heardOf_other hub hid, textsOf_other hid, List.append_nil, List.append_nil]
      exact h.whole id hopen
  · rw [eventsOf_append, List.append_eq_nil_iff] at hnone
    have hid : event.id ≠ id := by
      rintro rfl
      rw [eventsOf_self] at hnone
      cases hnone.2
    rw [contains_handle hub hid]
    exact h.unopened id hnone.1

end Hub

end ShowRelay
