/-
  ShowRelay.Net.SocketAddress

  Where a datagram goes: an IP address and a port. Version 6 stands in square
  brackets, with its scope after a percent sign unless that is zero.
-/

import ShowRelay.Net.Ip

namespace ShowRelay

/-- An address and a port, with a scope in version 6. -/
inductive SocketAddress where
  | v4 (ip : Ipv4) (port : UInt16)
  | v6 (ip : Ipv6) (port : UInt16) (scope : UInt32)
  deriving DecidableEq

namespace SocketAddress

/-- A port of an address, in scope zero. -/
def ofIp (ip : IpAddress) (port : UInt16) : SocketAddress :=
  match ip with
  | .v4 ip => v4 ip port
  | .v6 ip => v6 ip port 0

/-- The port. -/
def port : SocketAddress → UInt16
  | v4 _ port => port
  | v6 _ port _ => port

/-- Whether the address is of the machine itself. -/
def isLoopback : SocketAddress → Bool
  | v4 ip _ => ip.a = 127
  | v6 ip _ _ => ip.groups = [0, 0, 0, 0, 0, 0, 0, 1]

/-- The text of a port with the colon before it. -/
def portChars (port : UInt16) : List Char := ':' :: Nat.toDigits 10 port.toNat

/-- The characters of a socket address. -/
def chars : SocketAddress → List Char
  | v4 ip port => ip.chars ++ portChars port
  | v6 ip port scope =>
    let scopeChars := if scope = 0 then [] else '%' :: Nat.toDigits 10 scope.toNat
    '[' :: ip.chars ++ scopeChars ++ ']' :: portChars port

/-- The text of a socket address. -/
def text (a : SocketAddress) : String := String.ofList a.chars

/-! ## Reading -/

/-- The port at the front of a text, with the colon before it. -/
def readPort (s : List Char) : Option (UInt16 × List Char) := do
  let s ← Text.readChar ':' s
  let (n, s) ← Text.NumeralForm.read { base := 10, limit := UInt16.size } s
  return (UInt16.ofNat n, s)

/-- The scope at the front of a text, with the percent sign before it; zero when
    there is none. -/
def readScope (s : List Char) : UInt32 × List Char :=
  let scope := do
    let s ← Text.readChar '%' s
    Text.NumeralForm.read { base := 10, limit := UInt32.size } s
  match scope with
  | some (n, rest) => (UInt32.ofNat n, rest)
  | none => (0, s)

/-- A socket address of version 4 at the front of a text. -/
def readV4 (s : List Char) : Option (SocketAddress × List Char) := do
  let (ip, s) ← Ipv4.read s
  let (port, s) ← readPort s
  return (v4 ip port, s)

/-- A socket address of version 6 at the front of a text. -/
def readV6 (s : List Char) : Option (SocketAddress × List Char) := do
  let s ← Text.readChar '[' s
  let (ip, s) ← Ipv6.read s
  let (scope, s) := readScope s
  let s ← Text.readChar ']' s
  let (port, s) ← readPort s
  return (v6 ip port scope, s)

/-- The socket address that a whole text writes. -/
def ofChars? (s : List Char) : Option SocketAddress :=
  match (readV4 s).orElse fun _ => readV6 s with
  | some (a, []) => some a
  | _ => none

end SocketAddress

end ShowRelay
