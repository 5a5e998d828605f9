/-
  ShowRelay.Osc

  OSC messages with one string argument. A packet is three padded strings, the
  address, the type tag `,s` and the argument; a padded string is its bytes, a
  NUL, and further NULs up to the next multiple of four bytes.

  Reading refuses everything that writing does not produce, and tells four
  faults of one string apart in the order in which it looks for them: no NUL, too
  few bytes, a byte other than NUL in the padding, bytes that are not text.
-/

import ShowRelay.Text.Quoted
import ShowRelay.Text.Utf8

namespace ShowRelay

/-- An OSC message with one string argument. -/
structure OscMessage where
  -- The address, which begins with a slash.
  address : String
  argument : String
  deriving Repr, DecidableEq

namespace Osc

/-- The address on which updates are passed on. -/
def updateAddress : String := "/abstract/conf"

/-- The type tag of a message with exactly one string argument. -/
def stringTag : String := ",s"

/-- The greatest number of bytes that one datagram can carry. -/
def maxPacketSize : Nat := 65507

/-! ## Padded strings -/

/-- The length of a padded string whose text has `n` bytes: the next multiple of four. -/
def paddedLength (n : Nat) : Nat := (n / 4 + 1) * 4

/-- There is room for at least one NUL, and for at most four. -/
theorem paddedLength_bounds (n : Nat) : n < paddedLength n ∧ paddedLength n ≤ n + 4 := by
  unfold paddedLength
  omega

theorem four_dvd_paddedLength (n : Nat) : 4 ∣ paddedLength n := Nat.dvd_mul_left 4 _

/-- A text terminated and padded with NULs. -/
def pad (bytes : Bytes) : Bytes :=
  bytes ++ List.replicate (paddedLength bytes.length - bytes.length) 0

theorem length_pad (bytes : Bytes) : (pad bytes).length = paddedLength bytes.length := by
  have := paddedLength_bounds bytes.length
  simp only [pad, List.length_append, List.length_replicate]
  omega

/-- Why a padded string could not be read. -/
inductive StringFault where
  | unterminated
  -- The packet ends within the padding.
  | truncated
  -- The padding holds a byte other than NUL.
  | dirtyPadding
  -- The bytes before the NUL are not text.
  | notText (fault : Utf8.Fault)
  deriving Repr, DecidableEq

/-- The padded string at the front of some bytes, and the bytes after it. -/
def readString (bytes : Bytes) : Except StringFault (String × Bytes) :=
  let text := bytes.takeWhile (· ≠ 0)
  let total := paddedLength text.length
  if text.length = bytes.length then .error .unterminated
  else if bytes.length < total then .error .truncated
  else if ((bytes.take total).drop text.length).any (· ≠ 0) then .error .dirtyPadding
  else
    match Utf8.decode? text with
    | some s => .ok (s, bytes.drop total)
    | none => .error (.notText ((Utf8.fault text).getD (.cutShort 0)))

/-! ## Messages -/

/-- Why a message has no packet. -/
inductive EncodeError where
  -- The address does not begin with a slash.
  | addressWithoutSlash (address : String)
  | containsNul
  -- The packet would have `size` bytes.
  | tooLarge (size : Nat)
  deriving Repr, DecidableEq

/-- The wording of an error. -/
def EncodeError.message : EncodeError → String
  | addressWithoutSlash address => "OSC address must start with '/': " ++ Text.quoted address
  | containsNul => "OSC strings cannot contain NUL bytes"
  | tooLarge size =>
    "OSC packet too large: " ++ size.repr ++ " bytes (max " ++ maxPacketSize.repr ++ ")"

/-- Why bytes are not the packet of a message. -/
inductive DecodeError where
  -- One of the three strings cannot be read.
  | string (fault : StringFault)
  -- The address does not begin with a slash.
  | notMessage (address : String)
  | wrongTag (tag : String)
  | trailing (count : Nat)
  deriving Repr, DecidableEq

namespace DecodeError

/-- Whether the packet may be the beginning of a longer one that can be read. -/
def isTruncation : DecodeError → Bool
  | string .truncated => true
  | _ => false

/-- The wording of an error. -/
def message : DecodeError → String
  | string .unterminated => "unterminated OSC string"
  | string .truncated => "truncated OSC string padding"
  | string .dirtyPadding => "non-NUL OSC string padding"
  | string (.notText fault) => "OSC string is not UTF-8: " ++ fault.message
  | notMessage address => "not an OSC message: " ++ Text.quoted address
  | wrongTag tag => "expected type tag " ++ Text.quoted stringTag ++ ", got " ++ Text.quoted tag
  | trailing count => count.repr ++ " trailing bytes"

end DecodeError

/-- Whether an address begins with a slash. -/
def isAddress (address : String) : Bool := address.toList.head? = some '/'

/-- The packet of a message. -/
def encode (message : OscMessage) : Except EncodeError Bytes :=
  let address := Utf8.encode message.address
  let argument := Utf8.encode message.argument
  if !isAddress message.address then .error (.addressWithoutSlash message.address)
  else if address.contains 0 || argument.contains 0 then .error .containsNul
  else
    let packet := pad address ++ pad (Utf8.encode stringTag) ++ pad argument
    if maxPacketSize < packet.length then .error (.tooLarge packet.length) else .ok packet

/-- The message of a packet. -/
def decode (packet : Bytes) : Except DecodeError OscMessage := do
  let (address, rest) ← (readString packet).mapError .string
  if !isAddress address then throw (.notMessage address)
  let (tag, rest) ← (readString rest).mapError .string
  if tag ≠ stringTag then throw (.wrongTag tag)
  let (argument, rest) ← (readString rest).mapError .string
  if !rest.isEmpty then throw (.trailing rest.length)
  return ⟨address, argument⟩

end Osc

end ShowRelay
