/-
  ShowRelay.StopSignal

  What the program waits for before it shuts down. The signal keeps a notifier
  of its own, so that losing all others does not end the wait: only a notice does.
-/

namespace ShowRelay

/-- A signal that anyone with a notifier can give. -/
structure StopSignal where
  -- How many notifiers were handed out and are still there.
  notifiers : Nat := 0
  -- How many notices were given and not yet waited for.
  notices : Nat := 0
  deriving Repr, DecidableEq

namespace StopSignal

/-- The signal with one more notifier handed out. -/
def handOut (s : StopSignal) : StopSignal := { s with notifiers := s.notifiers + 1 }

/-- The signal after a notifier was lost. -/
def lose (s : StopSignal) : StopSignal := { s with notifiers := s.notifiers - 1 }

/-- The signal after a notifier gave notice; without one nobody can. -/
def notify (s : StopSignal) : StopSignal :=
  if s.notifiers = 0 then s else { s with notices := s.notices + 1 }

/-- The signal after waiting for it, if the wait ends. -/
def wait? (s : StopSignal) : Option StopSignal :=
  if s.notices = 0 then none else some { s with notices := s.notices - 1 }

end StopSignal

end ShowRelay
