/-
  ShowRelay.Text.Utf8

  Text as bytes. `Utf8.decode?` inverts `Utf8.encode` exactly
  (`Utf8.decode?_eq_some_iff`); where bytes are not text, `Utf8.fault` finds the
  first place at which they stop being a sequence of whole characters.
-/

namespace ShowRelay

/-- A sequence of bytes: the contents of a file, a packet, a file name. -/
abbrev Bytes := List UInt8

namespace Utf8

/-- The bytes of a text. -/
def encode (s : String) : Bytes := s.toByteArray.data.toList

/-- The text written by some bytes, if they write one. -/
def decode? (bytes : Bytes) : Option String := String.fromUTF8? ⟨bytes.toArray⟩

theorem decode?_eq_some_iff {bytes : Bytes} {s : String} :
    decode? bytes = some s ↔ bytes = encode s := by
  unfold decode? String.fromUTF8?
  constructor
  · intro h
    split at h
    · cases h
      simp [encode, String.fromUTF8]
    · cases h
  · rintro rfl
    have hv : (⟨(encode s).toArray⟩ : ByteArray) = s.toByteArray := by simp [encode]
    rw [hv]
    simp [s.isValidUTF8, String.fromUTF8]

theorem decode?_encode (s : String) : decode? (encode s) = some s :=
  decode?_eq_some_iff.2 rfl

theorem encode_injective {s t : String} (h : encode s = encode t) : s = t := by
  have := decode?_encode s
  rw [h, decode?_encode] at this
  exact (Option.some.inj this).symm

/-! ## Where bytes stop being text -/

/-- The first place at which bytes stop being a sequence of whole characters. -/
inductive Fault where
  -- `length` bytes from `index` on begin no character: a lead byte and those
  -- continuation bytes that could still follow it.
  | malformed (index length : Nat)
  -- The bytes end inside the character that begins at `index`.
  | cutShort (index : Nat)
  deriving Repr, DecidableEq

/-- What is wrong, in words. -/
def Fault.message : Fault → String
  | malformed index length =>
    "invalid utf-8 sequence of " ++ length.repr ++ " bytes from index " ++ index.repr
  | cutShort index => "incomplete utf-8 byte sequence from index " ++ index.repr

/-- Whether a byte continues a character. -/
def isContinuation (b : UInt8) : Bool := 0x80 ≤ b && b ≤ 0xBF

/-- What must follow a lead byte: how many bytes, and the bounds of the first of
    them, which keep out overlong forms, surrogates and values past the last
    code point. -/
structure Follow where
  -- The number of bytes after the lead byte.
  count : Nat
  low : UInt8 := 0x80
  high : UInt8 := 0xBF

/-- What must follow `lead`, if it is a lead byte. -/
def follow? (lead : UInt8) : Option Follow :=
  if lead < 0x80 then some { count := 0 }
  else if lead < 0xC2 then none
  else if lead < 0xE0 then some { count := 1 }
  else if lead = 0xE0 then some { count := 2, low := 0xA0 }
  else if lead = 0xED then some { count := 2, high := 0x9F }
  else if lead < 0xF0 then some { count := 2 }
  else if lead = 0xF0 then some { count := 3, low := 0x90 }
  else if lead < 0xF4 then some { count := 3 }
  else if lead = 0xF4 then some { count := 3, high := 0x8F }
  else none

/-- The first fault in `bytes`, where `start` is the index of the character being
    read, `seen` the number of its bytes that were accepted, and `due` what it
    still needs. -/
def faultFrom (start seen : Nat) (due : Follow) : Bytes → Option Fault
  | [] => if due.count = 0 then none else some (.cutShort start)
  | b :: rest =>
    if due.count = 0 then
      match follow? b with
      | none => some (.malformed (start + seen) 1)
      | some next => faultFrom (start + seen) 1 next rest
    else if due.low ≤ b && b ≤ due.high then
      faultFrom start (seen + 1) { count := due.count - 1 } rest
    else some (.malformed start seen)

/-- The first place at which `bytes` stop being whole characters. -/
def fault (bytes : Bytes) : Option Fault := faultFrom 0 0 { count := 0 } bytes

end Utf8

end ShowRelay
