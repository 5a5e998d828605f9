/-
  ShowRelay.Request

  What a control client asks for. A message that begins with `save:` asks for a
  snapshot under the name that follows; every other message is an update.
-/

import ShowRelay.Text.Cut

namespace ShowRelay

/-- A classified client message. -/
inductive Request where
  -- Keep the current state under `name`, which is as the client sent it.
  | save (name : String)
  -- Merge a delta and pass its text on verbatim.
  | update (raw : String)
  deriving Repr, DecidableEq

namespace Request

/-- The beginning of a message that asks for a snapshot. -/
def saveTag : String := "save:"

/-- The beginning of the answer to a snapshot that was written. -/
def savedTag : String := "saved:"

/-- The beginning of the answer to a snapshot that could not be written. -/
def saveFailedTag : String := "savefailed:"

/-- The classification of a message; the tag is matched exactly, case included. -/
def classify (raw : String) : Request :=
  match Text.dropFront? saveTag.toList raw.toList with
  | some name => save (String.ofList name)
  | none => update raw

/-- An update is passed on as it came. -/
theorem eq_of_classify_eq_update {raw text : String} (h : classify raw = update text) :
    text = raw := by
  unfold classify at h
  split at h
  · cases h
  · injection h with h
    exact h.symm

end Request

end ShowRelay
