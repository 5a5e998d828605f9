/-
  ShowRelay.Proofs.Config.Sinks

  Destinations as text. The text of a socket address, or of an IP address, is
  resolved to this address again (`Sink.resolve_text`), although an IP address
  is looked for first: version 4 goes on with a colon, which ends the IP address
  before the text ends, and version 6 stands in brackets, with which no IP address
  begins. Hosts are looked up last, so it does not matter how. So a primary
  destination may be kept as text among the others.
-/

import Mathlib.Data.List.Forall2
import ShowRelay.Config.Basic
import ShowRelay.Proofs.Net.Ip

namespace ShowRelay

/-! ## Socket addresses -/

namespace SocketAddress

open Text

theorem readPort_portChars (port : UInt16) {s : List Char} (hs : NoDigit 10 s) :
    readPort (portChars port ++ s) = some (port, s) := by
  have hread := NumeralForm.read_toDigits { base := 10, limit := UInt16.size }
    (by decide) (by decide) port.toNat_lt nofun hs
  simp only [readPort, portChars, List.cons_append, readChar_cons, hread, Option.bind_eq_bind,
    Option.bind_some, UInt16.ofNat_toNat, Option.pure_def]

/-- The text of a scope, which is none in scope zero. -/
def scopeChars (scope : UInt32) : List Char :=
  if scope = 0 then [] else '%' :: Nat.toDigits 10 scope.toNat

theorem readScope_scopeChars (scope : UInt32) {s : List Char} (hs : NoDigit 10 s)
    (hpercent : s.head? ≠ some '%') : readScope (scopeChars scope ++ s) = (scope, s) := by
  unfold scopeChars
  split
  · next hzero =>
    rw [List.nil_append, readScope, readChar_eq_none hpercent, hzero]
    rfl
  · have hread := NumeralForm.read_toDigits { base := 10, limit := UInt32.size }
      (by decide) (by decide) scope.toNat_lt nofun hs
    simp only [readScope, List.cons_append, readChar_cons, hread, Option.bind_eq_bind,
      Option.bind_some, UInt32.ofNat_toNat]

/-- A scope or a bracket ends an address. -/
theorem endsGroups_scopeChars (scope : UInt32) (s : List Char) :
    Ipv6.EndsGroups (scopeChars scope ++ ']' :: s) := by
  unfold scopeChars
  split
  · exact Ipv6.endsGroups_cons (by decide) (by decide) (by decide) s
  · exact Ipv6.endsGroups_cons (by decide) (by decide) (by decide) _

theorem chars_v6 (ip : Ipv6) (port : UInt16) (scope : UInt32) :
    (v6 ip port scope).chars =
      '[' :: (ip.chars ++ (scopeChars scope ++ ']' :: portChars port)) := by
  simp [chars, scopeChars]

/-- A socket address is read as it is written. -/
theorem ofChars?_chars (a : SocketAddress) : ofChars? a.chars = some a := by
  cases a with
  | v4 ip port =>
    have hip := ip.read_chars (s := portChars port) (noDigit_cons (by decide) _)
    have hport := readPort_portChars port (noDigit_nil 10)
    rw [List.append_nil] at hport
    simp [ofChars?, chars, readV4, hip, hport]
  | v6 ip port scope =>
    have hbracket : NoDigit 10 (']' :: portChars port) := noDigit_cons (by decide) _
    have hip := ip.read_chars (endsGroups_scopeChars scope (portChars port))
    have hscope := readScope_scopeChars scope hbracket (by simp)
    have hport := readPort_portChars port (noDigit_nil 10)
    rw [List.append_nil] at hport
    have hv4 : ∀ s, Ipv4.read ('[' :: s) = none :=
      fun s => Ipv4.read_of_noDigit (noDigit_cons (by decide) s)
    rw [chars_v6]
    simp [ofChars?, readV4, hv4, readV6, readChar_cons, hip, hscope, hport]

/-- No socket address is the text of an IP address. -/
theorem ipAddress_ofChars?_chars (a : SocketAddress) : IpAddress.ofChars? a.chars = none := by
  cases a with
  | v4 ip port =>
    have hip := ip.read_chars (s := portChars port) (noDigit_cons (by decide) _)
    simp only [IpAddress.ofChars?, IpAddress.read, chars, hip]
    rfl
  | v6 ip port scope =>
    have hbracket : ∀ s, NoDigit 16 ('[' :: s) := noDigit_cons (by decide)
    rw [chars_v6]
    simp [IpAddress.ofChars?, IpAddress.read, Ipv4.read_of_noDigit (hbracket _).ten, Ipv6.read,
      Ipv6.readGroups_of_noDigit (hbracket _), readChar]

end SocketAddress

/-! ## Destinations -/

namespace Sink

variable (hosts : HostLookup)

theorem resolve_text (a : SocketAddress) : resolve hosts a.text = .ok a := by
  rw [resolve, resolve?, SocketAddress.text, String.toList_ofList,
    a.ipAddress_ofChars?_chars, a.ofChars?_chars]
  rfl

theorem resolve_ip_text (ip : IpAddress) :
    resolve hosts ip.text = .ok (.ofIp ip defaultPort) := by
  rw [resolve, resolve?, IpAddress.text, String.toList_ofList, ip.ofChars?_chars]

end Sink

namespace Config

variable {hosts : HostLookup}

/-- The addresses of some settings stand for the destinations one by one. -/
theorem sinkAddresses_eq_ok_iff {config : Config} {addresses : List SocketAddress} :
    config.sinkAddresses hosts = .ok addresses ↔
      List.Forall₂ (fun s a => Sink.resolve hosts s = .ok a) config.sinks addresses := by
  rw [sinkAddresses]
  generalize config.sinks = sinks
  induction sinks generalizing addresses with
  | nil =>
    rw [List.mapM_nil, List.forall₂_nil_left_iff]
    constructor
    · intro h
      cases h
      rfl
    · rintro rfl
      rfl
  | cons s sinks ih =>
    rw [List.mapM_cons, List.forall₂_cons_left_iff]
    cases hs : Sink.resolve hosts s with
    | error e => simp [Bind.bind, Except.bind]
    | ok a =>
      simp only [← ih, Except.ok.injEq, exists_and_left]
      cases sinks.mapM (Sink.resolve hosts) with
      | error e => simp [Bind.bind, Except.bind]
      | ok later => simp [Bind.bind, Except.bind, Pure.pure, Except.pure, eq_comm]

theorem sinks_setPrimarySink (config : Config) (ip : IpAddress) :
    (config.setPrimarySink ip).sinks =
      (SocketAddress.ofIp ip Sink.defaultPort).text :: config.sinks.tail := by
  rw [setPrimarySink, List.drop_one]

/-- All destinations have addresses exactly if each of them has one. -/
theorem exists_sinkAddresses_iff (config : Config) :
    (∃ addresses, config.sinkAddresses hosts = .ok addresses) ↔
      ∀ s ∈ config.sinks, ∃ a, Sink.resolve hosts s = .ok a := by
  simp only [sinkAddresses_eq_ok_iff]
  generalize config.sinks = sinks
  induction sinks with
  | nil => exact ⟨fun _ => nofun, fun _ => ⟨[], .nil⟩⟩
  | cons s sinks ih =>
    rw [List.forall_mem_cons, ← ih]
    constructor
    · rintro ⟨addresses, hall⟩
      obtain ⟨a, later, ha, hlater, -⟩ := List.forall₂_cons_left_iff.1 hall
      exact ⟨⟨a, ha⟩, later, hlater⟩
    · rintro ⟨⟨a, ha⟩, later, hlater⟩
      exact ⟨a :: later, .cons ha hlater⟩

/-- The addresses of some settings are those of their destinations. -/
theorem mem_sinkAddresses_iff {config : Config} {addresses : List SocketAddress}
    (h : config.sinkAddresses hosts = .ok addresses) {a : SocketAddress} :
    a ∈ addresses ↔ ∃ s ∈ config.sinks, Sink.resolve hosts s = .ok a := by
  rw [sinkAddresses_eq_ok_iff] at h
  generalize config.sinks = sinks at h
  induction h with
  | nil => simp
  | cons hs _ ih =>
    rw [List.mem_cons, List.exists_mem_cons_iff, ih, hs, Except.ok.injEq, eq_comm]

/-! ## The result -/

/-- Addresses survive being kept as text, however hosts are looked up. A socket address is what its
    text is resolved to, and an IP address stands for itself at port 60000. So a primary destination
    that is set becomes the first of all and has the address that was asked for, the destinations
    after it and all other settings are as before, and whether all destinations have addresses
    depends on the later ones alone. -/
theorem addresses_of_text (hosts : HostLookup) :
    (∀ a : SocketAddress, Sink.resolve hosts a.text = .ok a) ∧
    (∀ ip : IpAddress, Sink.resolve hosts ip.text = .ok (.ofIp ip 60000)) ∧
    ∀ (config : Config) (ip : IpAddress),
      (∃ first, Sink.resolve hosts first = .ok (.ofIp ip 60000) ∧
        config.setPrimarySink ip = { config with sinks := first :: config.sinks.tail }) ∧
      ((∃ addresses, (config.setPrimarySink ip).sinkAddresses hosts = .ok addresses) ↔
        ∀ s ∈ config.sinks.tail, ∃ a, Sink.resolve hosts s = .ok a) := by
  refine ⟨Sink.resolve_text hosts, Sink.resolve_ip_text hosts, fun config ip => ⟨?_, ?_⟩⟩
  · refine ⟨_, Sink.resolve_text hosts (.ofIp ip Sink.defaultPort), ?_⟩
    rw [setPrimarySink, List.drop_one]
  · rw [exists_sinkAddresses_iff, sinks_setPrimarySink, List.forall_mem_cons]
    exact and_iff_right ⟨_, Sink.resolve_text hosts (.ofIp ip Sink.defaultPort)⟩

end Config

end ShowRelay
