/-
  ShowRelay.Session

  The identity of a connected control client. Numbers are given out in the
  order of connection and never reused, and sessions are visited in that order.
-/

namespace ShowRelay

/-- The number that the relay gave to a control client. -/
structure SessionId where
  number : Nat
  deriving Repr, DecidableEq

namespace SessionId

/-- The name of a session in messages. -/
def text (id : SessionId) : String := "session-" ++ id.number.repr

instance : LE SessionId := ⟨fun a b => a.number ≤ b.number⟩

instance : LT SessionId := ⟨fun a b => a.number < b.number⟩

theorem le_def {a b : SessionId} : a ≤ b ↔ a.number ≤ b.number := Iff.rfl

theorem lt_def {a b : SessionId} : a < b ↔ a.number < b.number := Iff.rfl

instance : DecidableLT SessionId := fun a b => inferInstanceAs (Decidable (a.number < b.number))

instance : Std.IsLinearOrder SessionId where
  le_refl a := Nat.le_refl a.number
  le_trans _ _ _ := Nat.le_trans
  le_antisymm := fun ⟨_⟩ ⟨_⟩ h k => congrArg SessionId.mk (Nat.le_antisymm h k)
  le_total a b := Nat.le_total a.number b.number

instance : Std.LawfulOrderLT SessionId where
  lt_iff a b := by
    simp only [le_def, lt_def]
    omega

end SessionId

end ShowRelay
