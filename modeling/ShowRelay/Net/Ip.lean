/-
  ShowRelay.Net.Ip

  IP addresses and their text. Version 4 is four decimal octets. Version 6 is
  eight groups in hexadecimal, in which the longest run of at least two zero
  groups, the first among equals, is written `::`, and a mapped version 4 address
  keeps its dotted form.

  Reading is more generous than writing: `::` may stand for any number of groups
  from one on, groups may have leading zeros and capital letters, and the last
  two groups may be dotted.
-/

import ShowRelay.Text.Numeral
import ShowRelay.Text.Quoted

namespace ShowRelay

/-- An address of version 4. -/
structure Ipv4 where
  a : UInt8
  b : UInt8
  c : UInt8
  d : UInt8
  deriving Repr, DecidableEq

/-- An address of version 6. -/
structure Ipv6 where
  -- The groups, the most significant first.
  groups : List UInt16
  length_groups : groups.length = 8
  deriving DecidableEq

/-- An IP address. -/
inductive IpAddress where
  | v4 (ip : Ipv4)
  | v6 (ip : Ipv6)
  deriving DecidableEq

/-! ## Version 4 -/

namespace Ipv4

/-- The address that a listener takes to be reached at every one of its own. -/
def unspecified : Ipv4 := ⟨0, 0, 0, 0⟩

/-- The address of the machine itself. -/
def loopback : Ipv4 := ⟨127, 0, 0, 1⟩

/-- The text of one octet. -/
def octetText (n : UInt8) : List Char := Nat.toDigits 10 n.toNat

/-- The dotted text. -/
def chars (ip : Ipv4) : List Char :=
  octetText ip.a ++ '.' :: octetText ip.b ++ '.' :: octetText ip.c ++ '.' :: octetText ip.d

/-- The octet at the front of a text: one to three digits without superfluous zeros. -/
def readOctet (s : List Char) : Option (UInt8 × List Char) :=
  (Text.NumeralForm.read
    { base := 10, limit := 256, maxDigits := some 3, leadingZeros := false } s).map
    fun (n, rest) => (UInt8.ofNat n, rest)

/-- The dotted address at the front of a text. -/
def read (s : List Char) : Option (Ipv4 × List Char) := do
  let (a, s) ← readOctet s
  let (b, s) ← readOctet (← Text.readChar '.' s)
  let (c, s) ← readOctet (← Text.readChar '.' s)
  let (d, s) ← readOctet (← Text.readChar '.' s)
  return (⟨a, b, c, d⟩, s)

/-- The two groups that hold the octets in an address of version 6. -/
def groups (ip : Ipv4) : List UInt16 :=
  [ip.a.toUInt16 * 256 + ip.b.toUInt16, ip.c.toUInt16 * 256 + ip.d.toUInt16]

/-- The octets that two groups hold. -/
def ofGroups (high low : UInt16) : Ipv4 :=
  ⟨(high / 256).toUInt8, high.toUInt8, (low / 256).toUInt8, low.toUInt8⟩

end Ipv4

/-! ## Version 6 -/

namespace Ipv6

/-- The text of one group. -/
def groupText (g : UInt16) : List Char := Text.hexDigits g.toNat

/-- The text of some groups with a colon between neighbours. -/
def groupsText (groups : List UInt16) : List Char :=
  [':'].intercalate (groups.map groupText)

/-- The number of zero groups in a row from position `i` on. -/
def zeroRunAt (groups : List UInt16) (i : Nat) : Nat :=
  ((groups.drop i).takeWhile (· = 0)).length

/-- The position and length of the longest run of zero groups, the first among equals. -/
def longestZeroRun (groups : List UInt16) : Nat × Nat :=
  (List.range groups.length).foldl
    (fun best i =>
      if best.2 < zeroRunAt groups i then (i, zeroRunAt groups i) else best)
    (0, 0)

/-- The address of version 4 that a mapped address holds. -/
def mapped? (ip : Ipv6) : Option Ipv4 :=
  match ip.groups with
  | [0, 0, 0, 0, 0, 0xFFFF, high, low] => some (Ipv4.ofGroups high low)
  | _ => none

/-- The shortest text of some groups. -/
def compressed (groups : List UInt16) : List Char :=
  let (start, length) := longestZeroRun groups
  if 1 < length then
    groupsText (groups.take start) ++ [':', ':'] ++ groupsText (groups.drop (start + length))
  else groupsText groups

/-- The text of an address. -/
def chars (ip : Ipv6) : List Char :=
  match ip.mapped? with
  | some ip => "::ffff:".toList ++ ip.chars
  | none => compressed ip.groups

/-- The group at the front of a text: one to four digits. -/
def readGroup (s : List Char) : Option (UInt16 × List Char) :=
  (Text.NumeralForm.read { base := 16, limit := 65536, maxDigits := some 4 } s).map
    fun (n, rest) => (UInt16.ofNat n, rest)

/-- The groups at the front of a text. -/
structure GroupRun where
  groups : List UInt16
  -- Whether the last two of them were dotted.
  endsDotted : Bool
  rest : List Char

/-- As many groups as there are at the front of a text, at most `room`; a colon
    stands before each except the `first`. Where two groups still have room, a
    dotted address may end the run. -/
def readGroups : (room : Nat) → (first : Bool) → List Char → GroupRun
  | 0, _, s => ⟨[], false, s⟩
  | room + 1, first, s =>
    match if first then some s else Text.readChar ':' s with
    | none => ⟨[], false, s⟩
    | some body =>
      match if 0 < room then Ipv4.read body else none with
      | some (ip, rest) => ⟨ip.groups, true, rest⟩
      | none =>
        match readGroup body with
        | none => ⟨[], false, s⟩
        | some (g, rest) =>
          let run := readGroups room false rest
          ⟨g :: run.groups, run.endsDotted, run.rest⟩

/-- An address from a list of groups, if there are eight. -/
def ofGroups? (groups : List UInt16) : Option Ipv6 :=
  if h : groups.length = 8 then some ⟨groups, h⟩ else none

/-- The address at the front of a text. Fewer than eight groups need a `::`, which
    no dotted address may stand before and which stands for at least one group. -/
def read (s : List Char) : Option (Ipv6 × List Char) :=
  let front := readGroups 8 true s
  if front.groups.length = 8 then
    (ofGroups? front.groups).map fun ip => (ip, front.rest)
  else if front.endsDotted then none
  else do
    let s ← Text.readChar ':' front.rest
    let s ← Text.readChar ':' s
    let back := readGroups (7 - front.groups.length) true s
    let zeros := List.replicate (8 - front.groups.length - back.groups.length) 0
    let ip ← ofGroups? (front.groups ++ zeros ++ back.groups)
    return (ip, back.rest)

end Ipv6

/-! ## Either version -/

namespace IpAddress

/-- The characters of an address. -/
def chars : IpAddress → List Char
  | v4 ip => ip.chars
  | v6 ip => ip.chars

/-- The text of an address. -/
def text (ip : IpAddress) : String := String.ofList ip.chars

/-- The address at the front of a text. -/
def read (s : List Char) : Option (IpAddress × List Char) :=
  match Ipv4.read s with
  | some (ip, rest) => some (v4 ip, rest)
  | none => (Ipv6.read s).map fun (ip, rest) => (v6 ip, rest)

/-- The address that a whole text writes. -/
def ofChars? (s : List Char) : Option IpAddress :=
  match read s with
  | some (ip, []) => some ip
  | _ => none

/-- The address that a whole text writes. -/
def ofText? (s : String) : Option IpAddress := ofChars? s.toList

/-- What is reported of a text that writes no address. -/
def malformedMessage : String := "invalid IP address syntax"

end IpAddress

end ShowRelay
