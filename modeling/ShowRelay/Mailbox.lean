/-
  ShowRelay.Mailbox

  The bounded queue between the hub and one registered session. Its receiver
  takes messages in the order in which they were put; once the receiver is gone
  nothing more is taken, and what still waits is lost.

  `contents` is everything that was ever put, and each operation changes it in
  one way: putting appends, taking and leaving change nothing.
-/

namespace ShowRelay

/-- A message for a session. -/
inductive Delivery where
  -- The update of another session, as it came.
  | broadcast (raw : String)
  -- The outcome of a save that the session itself asked for.
  | answer (text : String)
  deriving Repr, DecidableEq

/-- The text that the client is sent. -/
def Delivery.text : Delivery → String
  | broadcast raw => raw
  | answer text => text

/-- A queue of messages for one session. -/
structure Mailbox where
  -- How many messages can wait; with none, each is handed over directly.
  depth : Nat
  -- The messages that wait, oldest first.
  queued : List Delivery := []
  -- The messages that the receiver has taken, oldest first.
  taken : List Delivery := []
  attended : Bool := true
  deriving Repr, DecidableEq

namespace Mailbox

/-- Everything that was put, in the order in which it was put. -/
def contents (m : Mailbox) : List Delivery := m.taken ++ m.queued

/-- Whether one more message can wait. -/
def hasRoom (m : Mailbox) : Bool := m.queued.length < m.depth

/-- The mailbox with one more message waiting. -/
def put (d : Delivery) (m : Mailbox) : Mailbox := { m with queued := m.queued ++ [d] }

/-- The mailbox after its receiver took the message that waited longest. -/
def take? (m : Mailbox) : Option Mailbox :=
  match m.attended, m.queued with
  | true, d :: queued => some { m with queued, taken := m.taken ++ [d] }
  | _, _ => none

/-- Whether a message can only be handed over directly, and there is someone to take it. -/
def meets (m : Mailbox) : Bool := m.attended && m.depth = 0

/-- The mailbox after a message was handed to its receiver directly. -/
def handOver (d : Delivery) (m : Mailbox) : Mailbox := { m with taken := m.taken ++ [d] }

/-- The mailbox without its receiver. -/
def leave (m : Mailbox) : Mailbox := { m with attended := false }

theorem contents_put (d : Delivery) (m : Mailbox) : (m.put d).contents = m.contents ++ [d] := by
  simp [contents, put]

theorem contents_take? {m n : Mailbox} (h : m.take? = some n) : n.contents = m.contents := by
  unfold take? at h
  split at h
  · next heq =>
    cases h
    simp [contents, heq]
  · cases h

theorem contents_leave (m : Mailbox) : m.leave.contents = m.contents := rfl

/-- Where nothing waits, handing over adds at the end as well. -/
theorem contents_handOver {m : Mailbox} (d : Delivery) (h : m.queued = []) :
    (m.handOver d).contents = m.contents ++ [d] := by
  simp [contents, handOver, h]

end Mailbox

end ShowRelay
