/-
  ShowRelay.Proofs.Hub.Datagrams

  What listeners at the UDP destinations of a hub receive. An update has a
  datagram if it fits (`UdpSink.Fits`), and the datagram carries it: a listener
  reads the update back from it (`UdpSink.Carries`). Updates that do not fit
  leave a destination exactly as it was, so that a destination is after a run
  what the fitting updates alone would have made of it.

  The bound on the length of an update is not the greatest size of a datagram
  less the twenty bytes at its front. The padded text has a length that is a
  multiple of four and at least one NUL, and 65487 is no multiple of four.
-/

import Mathlib.Data.List.Forall2
import ShowRelay.Proofs.Hub.Broadcast
import ShowRelay.Proofs.Hub.Merging
import ShowRelay.Proofs.Osc
import ShowRelay.Sink.Udp

namespace ShowRelay

namespace UdpSink

/-! ## Updates and their datagrams -/

/-- An update that one datagram can carry. -/
structure Fits (raw : String) : Prop where
  clean : '\x00' ∉ raw.toList
  short : (Utf8.encode raw).length ≤ 65483

instance (raw : String) : Decidable (Fits raw) :=
  decidable_of_iff ('\x00' ∉ raw.toList ∧ (Utf8.encode raw).length ≤ 65483)
    ⟨fun h => ⟨h.1, h.2⟩, fun h => ⟨h.clean, h.short⟩⟩

/-- A datagram from which a listener reads an update. -/
structure Carries (raw : String) (datagram : Bytes) : Prop where
  -- The padded address and the padded type tag, twenty bytes together.
  header : datagram.take 20 = Utf8.encode "/abstract/conf\x00\x00,s\x00\x00"
  aligned : 4 ∣ datagram.length
  bounded : datagram.length ≤ 65507
  reads : Osc.decode datagram = .ok ⟨"/abstract/conf", raw⟩

/-- The one packet that an update can have. -/
def datagram (raw : String) : Bytes := Osc.packetOf ⟨Osc.updateAddress, raw⟩

/-- The address and the type tag make the same twenty bytes in every datagram. -/
theorem datagram_eq (raw : String) :
    datagram raw =
      Utf8.encode "/abstract/conf\x00\x00,s\x00\x00" ++ Osc.pad (Utf8.encode raw) := by
  have hfront : Osc.pad (Utf8.encode Osc.updateAddress) ++ Osc.pad (Utf8.encode Osc.stringTag) =
      Utf8.encode "/abstract/conf\x00\x00,s\x00\x00" := by decide
  rw [datagram, Osc.packetOf, hfront]

theorem length_header : (Utf8.encode "/abstract/conf\x00\x00,s\x00\x00").length = 20 := by decide

theorem length_datagram (raw : String) :
    (datagram raw).length = 20 + Osc.paddedLength (Utf8.encode raw).length := by
  rw [datagram_eq, List.length_append, length_header, Osc.length_pad]

/-- The greatest text that leaves room for its padding is three bytes short of a multiple of
    four that itself is three short of what the datagram has left. -/
theorem length_datagram_le_iff (raw : String) :
    (datagram raw).length ≤ Osc.maxPacketSize ↔ (Utf8.encode raw).length ≤ 65483 := by
  rw [length_datagram, Osc.maxPacketSize, Osc.paddedLength]
  omega

theorem slash_updateAddress : Osc.updateAddress.toList.head? = some '/' := by decide

theorem clean_updateAddress : '\x00' ∉ Osc.updateAddress.toList := by decide

theorem writable_iff_clean (raw : String) :
    Osc.Writable ⟨Osc.updateAddress, raw⟩ ↔ '\x00' ∉ raw.toList :=
  ⟨fun h => h.argument, fun h => ⟨slash_updateAddress, clean_updateAddress, h⟩⟩

/-- An update has a packet exactly if it fits. -/
theorem packet_eq_ok_iff {raw : String} {bytes : Bytes} :
    packet raw = .ok bytes ↔ Fits raw ∧ bytes = datagram raw := by
  rw [packet, Osc.encode_eq_ok_iff, Osc.writes_iff, writable_iff_clean]
  constructor
  · rintro ⟨⟨hclean, rfl⟩, hsize⟩
    exact ⟨⟨hclean, (length_datagram_le_iff raw).1 hsize⟩, rfl⟩
  · rintro ⟨hfits, rfl⟩
    exact ⟨⟨hfits.clean, rfl⟩, (length_datagram_le_iff raw).2 hfits.short⟩

theorem packet_of_fits {raw : String} (h : Fits raw) : packet raw = .ok (datagram raw) :=
  packet_eq_ok_iff.2 ⟨h, rfl⟩

/-- The packet of an update that fits carries it. -/
theorem carries_datagram {raw : String} (h : Fits raw) : Carries raw (datagram raw) where
  header := by
    rw [datagram_eq, ← length_header, List.take_left]
  aligned := by
    have haligned := Osc.four_dvd_paddedLength (Utf8.encode raw).length
    rw [length_datagram]
    omega
  bounded := (length_datagram_le_iff raw).2 h.short
  reads := Osc.decode_eq_ok_iff.2 (Osc.writes_iff.2 ⟨(writable_iff_clean raw).2 h.clean, rfl⟩)

/-! ## Destinations -/

/-- An update that does not fit changes nothing about a destination, whether or not datagrams
    can be sent to it. -/
theorem given_of_not_fits {raw : String} (h : ¬Fits raw) (sink : UdpSink) :
    Sink.given raw sink = sink := by
  show (forward raw sink).1 = sink
  unfold forward
  split
  · rfl
  · next bytes hpacket => exact absurd (packet_eq_ok_iff.1 hpacket).1 h

/-- So a destination is what the updates that fit make of it. -/
theorem givenAll_filter (updates : List String) (sink : UdpSink) :
    Sink.givenAll updates sink = Sink.givenAll (updates.filter fun raw => Fits raw) sink := by
  induction updates generalizing sink with
  | nil => rfl
  | cons raw updates ih =>
    by_cases hfits : Fits raw
    · have hkept : (raw :: updates).filter (fun raw => decide (Fits raw)) =
          raw :: updates.filter fun raw => Fits raw :=
        List.filter_cons_of_pos (decide_eq_true hfits)
      rw [hkept, Sink.givenAll_cons, Sink.givenAll_cons, ih]
    · have hleft : (raw :: updates).filter (fun raw => decide (Fits raw)) =
          updates.filter fun raw => Fits raw := List.filter_cons_of_neg (by simpa using hfits)
      rw [hleft, Sink.givenAll_cons, given_of_not_fits hfits, ih]

/-- Where datagrams can be sent, one goes out for an update that fits. -/
theorem given_of_fits {raw : String} (h : Fits raw) {sink : UdpSink}
    (hsend : sink.link.sendFault? sink.target = none) :
    Sink.given raw sink = { sink with failing := false, sent := sink.sent ++ [datagram raw] } := by
  show (forward raw sink).1 = _
  simp only [forward, packet_of_fits h, send, hsend]

theorem sent_givenAll {updates : List String} (h : ∀ raw ∈ updates, Fits raw) {sink : UdpSink}
    (hsend : sink.link.sendFault? sink.target = none) :
    (Sink.givenAll updates sink).sent = sink.sent ++ updates.map datagram := by
  induction updates generalizing sink with
  | nil => exact (List.append_nil _).symm
  | cons raw updates ih =>
    have hfirst := given_of_fits (h raw List.mem_cons_self) hsend
    -- Sending leaves the link and the target as they are.
    have hstill : (Sink.given raw sink).link.sendFault? (Sink.given raw sink).target = none := by
      rw [hfirst]
      exact hsend
    have hrest := ih (fun other hmem => h other (List.mem_cons_of_mem raw hmem)) hstill
    rw [Sink.givenAll_cons, hrest, hfirst, List.map_cons, List.append_assoc, List.singleton_append]

/-- What goes out to a destination is one datagram for each update that fits, in order. -/
theorem exists_datagrams (updates : List String) {sink : UdpSink}
    (hsend : sink.link.sendFault? sink.target = none) :
    ∃ datagrams, (Sink.givenAll updates sink).sent = sink.sent ++ datagrams ∧
      List.Forall₂ Carries (updates.filter fun raw => Fits raw) datagrams := by
  have hfit : ∀ raw ∈ updates.filter fun raw => Fits raw, Fits raw := fun raw hmem =>
    of_decide_eq_true (List.mem_filter.1 hmem).2
  refine ⟨(updates.filter fun raw => Fits raw).map datagram, ?_, ?_⟩
  · rw [givenAll_filter, sent_givenAll hfit hsend]
  · rw [List.forall₂_map_right_iff, List.forall₂_same]
    exact fun raw hmem => carries_datagram (hfit raw hmem)

end UdpSink

/-! ## Runs -/

namespace Hub

open UdpSink

variable {store : Store} {archive : Archive} {sinks : List UdpSink} {actions : List Action}
  {hub : Hub UdpSink}

/-- The way of an update from a session to a listener. The updates that a run has accepted are
    those that were passed on and the one in hand, and a hub at rest has none in hand.

    If datagrams can be sent, each destination has sent one for every update passed on that
    fits, in order, and none for any other; a listener reads the update back from it.

    Whether an update fits makes no difference to anything else. All accepted updates are
    merged, all are broadcast to the sessions that are open besides the sender, and the
    destinations are what the fitting ones alone make of them. -/
theorem datagrams_of_run (hrun : (start store archive sinks).run actions = some hub)
    (hsend : ∀ sink ∈ sinks, sink.link.sendFault? sink.target = none) :
    ∃ passed,
      passed ++ hub.updateInHand = (start store archive sinks).updates actions ∧
      (hub.round = none → passed = (start store archive sinks).updates actions ∧
        ∀ number, hub.updateDue number = []) ∧
      List.Forall₂ (fun first last => ∃ datagrams, last.sent = first.sent ++ datagrams ∧
        List.Forall₂ Carries (passed.filter fun raw => Fits raw) datagrams) sinks hub.sinks ∧
      hub.store = store.replay ((start store archive sinks).updates actions) ∧
      (∀ number mailbox, hub.mailboxes[number]? = some mailbox → mailbox.attended = true →
        mailbox.broadcasts ++ hub.updateDue number =
          ((start store archive sinks).history (offersIn number) actions).filterMap
            Delivery.raw?) ∧
      hub.sinks = sinks.map (Sink.givenAll (passed.filter fun raw => Fits raw)) := by
  have hmerged := merged_of_run hrun
  obtain ⟨passed, hpassed, hsinks⟩ := hmerged.passed
  refine ⟨passed, hpassed, ?_, ?_, hmerged.merged, ?_, ?_⟩
  · intro hrest
    rw [← hpassed, updateInHand_of_rest hrest, List.append_nil]
    refine ⟨rfl, fun number => ?_⟩
    rw [updateDue, dueAt_of_rest hrest]
    rfl
  · rw [hsinks, List.forall₂_map_right_iff, List.forall₂_same]
    exact fun sink hmem => exists_datagrams passed (hsend sink hmem)
  · intro number mailbox hat hattended
    have hsum := (balanced_of_run hrun number).sum mailbox hat hattended
    rw [mailbox.broadcasts_eq_offered, updateDue, ← List.filterMap_append, hsum]
  · rw [hsinks]
    exact List.map_congr_left fun sink _ => givenAll_filter passed sink

/-- Of three updates the second holds a NUL. The other session gets all three, and a listener
    the first and the third. -/
theorem datagrams_of_lesson :
    ∃ (hub : Hub UdpSink) (mailbox : Mailbox) (sink : UdpSink) (first second : Bytes),
      (start Store.blank (.ofDisk "presets" { place := .absent } 1)
        [{ target := .v4 ⟨127, 0, 0, 1⟩ 9000, link := .up }]).run
        [.handle (.connect ⟨1⟩ "desk" 4), .handle (.connect ⟨2⟩ "pad" 4),
          .handle (.message ⟨1⟩ "x:1"), .proceed, .proceed,
          .handle (.message ⟨1⟩ "bad:\x00"), .proceed, .proceed,
          .handle (.message ⟨1⟩ "x:2"), .proceed, .proceed] = some hub ∧
      hub.mailboxes[1]? = some mailbox ∧ mailbox.broadcasts = ["x:1", "bad:\x00", "x:2"] ∧
      hub.store = Store.blank.replay ["x:1", "bad:\x00", "x:2"] ∧
      hub.sinks = [sink] ∧ sink.sent = [first, second] ∧
      Carries "x:1" first ∧ Carries "x:2" second := by
  obtain ⟨passed, -, hrest, hsent, hstore, -, -⟩ :=
    @datagrams_of_run Store.blank (.ofDisk "presets" { place := .absent } 1)
      [{ target := .v4 ⟨127, 0, 0, 1⟩ 9000, link := .up }]
      [.handle (.connect ⟨1⟩ "desk" 4), .handle (.connect ⟨2⟩ "pad" 4),
        .handle (.message ⟨1⟩ "x:1"), .proceed, .proceed,
        .handle (.message ⟨1⟩ "bad:\x00"), .proceed, .proceed,
        .handle (.message ⟨1⟩ "x:2"), .proceed, .proceed] _ rfl (by decide)
  have hupdates : passed = ["x:1", "bad:\x00", "x:2"] := (hrest rfl).1
  have hfit : (["x:1", "bad:\x00", "x:2"].filter fun raw => Fits raw) = ["x:1", "x:2"] := by decide
  rw [hupdates, hfit, List.forall₂_cons_left_iff] at hsent
  obtain ⟨sink, sinks, ⟨datagrams, hsink, hcarried⟩, hsinks, hlast⟩ := hsent
  rw [List.forall₂_nil_left_iff] at hsinks
  obtain ⟨first, later, hfirst, hlater, rfl⟩ := List.forall₂_cons_left_iff.1 hcarried
  obtain ⟨second, others, hsecond, hothers, rfl⟩ := List.forall₂_cons_left_iff.1 hlater
  rw [List.forall₂_nil_left_iff] at hothers
  subst hsinks hothers
  exact ⟨_, _, sink, first, second, rfl, rfl, rfl, hstore, hlast, hsink, hfirst, hsecond⟩

end Hub

end ShowRelay
