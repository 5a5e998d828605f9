/-
  ShowRelay.Sink.Basic

  What updates are passed on to. Passing one on never fails: what goes wrong is
  noted, and the next update is passed on as if nothing had happened.
-/

import ShowRelay.LogRecord

namespace ShowRelay

/-- A kind of destination of updates. -/
class Sink (σ : Type) where
  -- The destination after an update was passed on to it, and what is noted about it.
  forward : String → σ → σ × List LogRecord

namespace Sink

/-- Destinations after an update was passed on to each in turn, and what is noted. -/
def forwardAll [Sink σ] (raw : String) (sinks : List σ) : List σ × List LogRecord :=
  let forwarded := sinks.map (forward raw)
  (forwarded.map Prod.fst, forwarded.flatMap Prod.snd)

end Sink

/-- A destination that keeps the updates it was given. -/
structure Recorder where
  received : List String := []
  deriving Repr, DecidableEq

instance : Sink Recorder where
  forward raw recorder := (⟨recorder.received ++ [raw]⟩, [])

end ShowRelay
