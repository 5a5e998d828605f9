/-
  ShowRelay.Proofs.Osc

  The packets of OSC messages. `Osc.Padded` says what a padded string is without
  saying how long its padding is, and `Osc.Writes` what the packet of a message
  is. Reading accepts exactly these packets, whatever else it is given, and
  writing gives exactly those that fit into one datagram (`Osc.exact_format`).

  All of it comes down to one string: `Osc.readString_eq_ok_iff` says when there
  is one at the front of some bytes, so that a packet is read string by string.
-/

import Mathlib.Data.List.TakeWhile
import ShowRelay.Osc
import ShowRelay.Proofs.Utf8

namespace ShowRelay.Osc

/-! ## The format -/

/-- `field` is a text terminated by a NUL and padded with NULs to the next multiple of four. -/
structure Padded (text field : Bytes) : Prop where
  -- After the NUL that terminates it there are fewer than four more.
  nuls : ∃ more < 4, field = text ++ 0 :: List.replicate more 0
  aligned : 4 ∣ field.length

/-- A message that can be written: the address begins with a slash, and neither text holds a
    NUL. -/
structure Writable (m : OscMessage) : Prop where
  slash : m.address.toList.head? = some '/'
  address : '\x00' ∉ m.address.toList
  argument : '\x00' ∉ m.argument.toList

/-- `packet` is the packet of a message: its address, the type tag and its argument. -/
structure Writes (m : OscMessage) (packet : Bytes) : Prop where
  writable : Writable m
  fields : ∃ address tag argument, Padded (Utf8.encode m.address) address ∧
    Padded (Utf8.encode ",s") tag ∧ Padded (Utf8.encode m.argument) argument ∧
    packet = address ++ tag ++ argument

/-- Why a message is refused, of several causes the first. -/
def Refused (m : OscMessage) : EncodeError → Prop
  | .addressWithoutSlash address => m.address.toList.head? ≠ some '/' ∧ address = m.address
  | .containsNul => m.address.toList.head? = some '/' ∧
      ('\x00' ∈ m.address.toList ∨ '\x00' ∈ m.argument.toList)
  | .tooLarge size => ∃ packet, Writes m packet ∧ 65507 < packet.length ∧ size = packet.length

/-! ## Padded strings -/

/-- There is one way to pad a text. -/
theorem padded_iff {text field : Bytes} : Padded text field ↔ field = pad text := by
  have hbounds := paddedLength_bounds text.length
  constructor
  · rintro ⟨⟨more, hmore, hfield⟩, haligned⟩
    have hlength : field.length = text.length + 1 + more := by
      rw [hfield, List.length_append, List.length_cons, List.length_replicate]
      omega
    have hcount : paddedLength text.length - text.length = more + 1 := by
      rw [hlength] at haligned
      unfold paddedLength
      omega
    rw [pad, hcount, List.replicate_succ, hfield]
  · rintro rfl
    obtain ⟨more, hmore⟩ : ∃ more, paddedLength text.length - text.length = more + 1 :=
      ⟨paddedLength text.length - text.length - 1, by omega⟩
    refine ⟨⟨more, by omega, ?_⟩, ?_⟩
    · rw [pad, hmore, List.replicate_succ]
    · rw [length_pad]
      exact four_dvd_paddedLength text.length

/-- The text of a padded string is what stands before its first NUL. -/
theorem takeWhile_pad {text : Bytes} (h : 0 ∉ text) (rest : Bytes) :
    (pad text ++ rest).takeWhile (· ≠ 0) = text := by
  have hbounds := paddedLength_bounds text.length
  obtain ⟨more, hmore⟩ : ∃ more, paddedLength text.length - text.length = more + 1 :=
    ⟨paddedLength text.length - text.length - 1, by omega⟩
  have hkept : ∀ b ∈ text, decide (b ≠ 0) = true := by
    intro b hb
    rw [decide_eq_true_iff]
    rintro rfl
    exact h hb
  rw [pad, hmore, List.replicate_succ, List.append_assoc, List.cons_append,
    List.takeWhile_append_of_pos hkept, List.takeWhile_cons_of_neg (by decide), List.append_nil]

theorem zero_notMem_takeWhile (bytes : Bytes) : 0 ∉ bytes.takeWhile (· ≠ 0) := by
  intro h
  have hne := List.mem_takeWhile_imp h
  simp at hne

/-- Bytes that are all NUL are so many NULs. -/
theorem eq_replicate_of_any_eq_false {bytes : Bytes} (h : bytes.any (· ≠ 0) = false) :
    bytes = List.replicate bytes.length 0 := by
  rw [List.eq_replicate_iff]
  refine ⟨rfl, fun b hb => ?_⟩
  have hb' := List.any_eq_false.1 h b hb
  simpa using hb'

/-- A string is read from the front of some bytes exactly if they begin with its padded
    form. -/
theorem readString_eq_ok_iff {bytes rest : Bytes} {s : String} :
    readString bytes = .ok (s, rest) ↔
      '\x00' ∉ s.toList ∧ bytes = pad (Utf8.encode s) ++ rest := by
  rw [← Utf8.zero_mem_encode_iff]
  constructor
  · intro h
    simp only [readString] at h
    have hprefix : bytes.takeWhile (· ≠ 0) <+: bytes := List.takeWhile_prefix _
    have hzero := zero_notMem_takeWhile bytes
    generalize bytes.takeWhile (· ≠ 0) = text at h hprefix hzero
    have hbounds := paddedLength_bounds text.length
    split at h
    · cases h
    · split at h
      · cases h
      · next hlength =>
        split at h
        · cases h
        · next hpadding =>
          split at h
          · next t htext =>
            cases h
            rw [Utf8.decode?_eq_some_iff] at htext
            subst htext
            refine ⟨hzero, ?_⟩
            -- What is read is the text, its padding and the rest, one after the other.
            have hfront : bytes.take (Utf8.encode s).length = Utf8.encode s :=
              (List.prefix_iff_eq_take.1 hprefix).symm
            have hnuls := eq_replicate_of_any_eq_false (by simpa using hpadding)
            rw [List.length_drop, List.length_take_of_le (by omega)] at hnuls
            have hfield : bytes.take (paddedLength (Utf8.encode s).length) =
                pad (Utf8.encode s) := by
              rw [← List.take_append_drop (Utf8.encode s).length
                (bytes.take (paddedLength (Utf8.encode s).length)), hnuls, List.take_take,
                Nat.min_eq_left (by omega), hfront, pad]
            rw [← hfield, List.take_append_drop]
          · cases h
  · rintro ⟨hzero, rfl⟩
    have hbounds := paddedLength_bounds (Utf8.encode s).length
    have htext := takeWhile_pad hzero rest
    have hlength : (pad (Utf8.encode s) ++ rest).length =
        paddedLength (Utf8.encode s).length + rest.length := by
      rw [List.length_append, length_pad]
    have htake : (pad (Utf8.encode s) ++ rest).take (paddedLength (Utf8.encode s).length) =
        pad (Utf8.encode s) := by
      rw [← length_pad, List.take_left]
    have hdrop : (pad (Utf8.encode s) ++ rest).drop (paddedLength (Utf8.encode s).length) =
        rest := by
      rw [← length_pad, List.drop_left]
    have hclean : ((pad (Utf8.encode s)).drop (Utf8.encode s).length).any (· ≠ 0) = false := by
      rw [pad, List.drop_left, List.any_eq_false]
      intro b hb
      rw [List.eq_of_mem_replicate hb]
      decide
    simp only [readString, htext, htake, hdrop, hclean, Utf8.decode?_encode]
    rw [if_neg (by omega), if_neg (by omega)]
    rfl

/-! ## Messages -/

theorem isAddress_iff (address : String) :
    isAddress address = true ↔ address.toList.head? = some '/' := by
  rw [isAddress, decide_eq_true_iff]

/-- The one packet that a message can have. -/
def packetOf (m : OscMessage) : Bytes :=
  pad (Utf8.encode m.address) ++ pad (Utf8.encode stringTag) ++ pad (Utf8.encode m.argument)

theorem writes_iff {m : OscMessage} {packet : Bytes} :
    Writes m packet ↔ Writable m ∧ packet = packetOf m := by
  constructor
  · rintro ⟨hwritable, address, tag, argument, haddress, htag, hargument, rfl⟩
    rw [padded_iff] at haddress htag hargument
    refine ⟨hwritable, ?_⟩
    rw [haddress, htag, hargument]
    rfl
  · rintro ⟨hwritable, rfl⟩
    exact ⟨hwritable, _, _, _, padded_iff.2 rfl, padded_iff.2 rfl, padded_iff.2 rfl, rfl⟩

/-- One string of a packet is read as `readString` reads it. -/
theorem mapError_bind_eq_ok_iff {α : Type} {bytes : Bytes}
    {next : String × Bytes → Except DecodeError α} {a : α} :
    (readString bytes).mapError .string >>= next = .ok a ↔
      ∃ s rest, readString bytes = .ok (s, rest) ∧ next (s, rest) = .ok a := by
  cases readString bytes with
  | error fault => simp [Except.mapError, Bind.bind, Except.bind]
  | ok read =>
    obtain ⟨s, rest⟩ := read
    constructor
    · exact fun h => ⟨s, rest, rfl, h⟩
    · rintro ⟨s', rest', hread, h⟩
      cases hread
      exact h

/-- Reading accepts a packet exactly as three strings with nothing after them. -/
theorem decode_eq_ok_iff_reads {m : OscMessage} {packet : Bytes} :
    decode packet = .ok m ↔ m.address.toList.head? = some '/' ∧ ∃ rest rest',
      readString packet = .ok (m.address, rest) ∧ readString rest = .ok (stringTag, rest') ∧
      readString rest' = .ok (m.argument, []) := by
  constructor
  · intro h
    obtain ⟨address, rest, haddress, h⟩ := mapError_bind_eq_ok_iff.1 h
    dsimp only at h
    split at h
    · cases h
    next hslash =>
    obtain ⟨tag, rest', htag, h⟩ := mapError_bind_eq_ok_iff.1 h
    dsimp only at h
    split at h
    · cases h
    next htagged =>
    obtain ⟨argument, rest'', hargument, h⟩ := mapError_bind_eq_ok_iff.1 h
    dsimp only at h
    split at h
    · cases h
    next hend =>
    cases h
    obtain rfl : tag = stringTag := by simpa using htagged
    obtain rfl : rest'' = [] := by simpa using hend
    refine ⟨(isAddress_iff address).1 (by simpa using hslash), rest, rest', haddress, htag,
      hargument⟩
  · rintro ⟨hslash, rest, rest', haddress, htag, hargument⟩
    have hslash' : isAddress m.address = true := (isAddress_iff _).2 hslash
    simp [decode, haddress, htag, hargument, hslash', Except.mapError, Bind.bind, Except.bind,
      Pure.pure, Except.pure]

theorem decode_eq_ok_iff {m : OscMessage} {packet : Bytes} :
    decode packet = .ok m ↔ Writes m packet := by
  rw [writes_iff, decode_eq_ok_iff_reads]
  constructor
  · rintro ⟨hslash, rest, rest', haddress, htag, hargument⟩
    obtain ⟨hcleanAddress, rfl⟩ := readString_eq_ok_iff.1 haddress
    obtain ⟨-, rfl⟩ := readString_eq_ok_iff.1 htag
    obtain ⟨hcleanArgument, rfl⟩ := readString_eq_ok_iff.1 hargument
    refine ⟨⟨hslash, hcleanAddress, hcleanArgument⟩, ?_⟩
    rw [packetOf, List.append_nil, List.append_assoc]
  · rintro ⟨⟨hslash, haddress, hargument⟩, rfl⟩
    refine ⟨hslash, pad (Utf8.encode stringTag) ++ pad (Utf8.encode m.argument),
      pad (Utf8.encode m.argument), ?_, ?_, ?_⟩
    · exact readString_eq_ok_iff.2 ⟨haddress, List.append_assoc _ _ _⟩
    · exact readString_eq_ok_iff.2 ⟨by decide, rfl⟩
    · exact readString_eq_ok_iff.2 ⟨hargument, (List.append_nil _).symm⟩

/-! ## Writing -/

/-- Writing refuses a message for the first cause there is, and otherwise gives its packet. -/
theorem encode_eq (m : OscMessage) : encode m =
    if m.address.toList.head? ≠ some '/' then .error (.addressWithoutSlash m.address)
    else if '\x00' ∈ m.address.toList ∨ '\x00' ∈ m.argument.toList then .error .containsNul
    else if maxPacketSize < (packetOf m).length then .error (.tooLarge (packetOf m).length)
    else .ok (packetOf m) := by
  have hslash : (!isAddress m.address) = true ↔ m.address.toList.head? ≠ some '/' := by
    rw [ne_eq, ← isAddress_iff, Bool.not_eq_true', Bool.not_eq_true]
  have hnul : ((Utf8.encode m.address).contains 0 || (Utf8.encode m.argument).contains 0) = true ↔
      '\x00' ∈ m.address.toList ∨ '\x00' ∈ m.argument.toList := by
    rw [Bool.or_eq_true, List.contains_iff_mem, List.contains_iff_mem, Utf8.zero_mem_encode_iff,
      Utf8.zero_mem_encode_iff]
  simp only [encode, hslash, hnul]
  rfl

/-- A message can be written if none of the first two causes is there. -/
theorem writable_iff (m : OscMessage) : Writable m ↔
    m.address.toList.head? = some '/' ∧
      ¬('\x00' ∈ m.address.toList ∨ '\x00' ∈ m.argument.toList) := by
  rw [not_or]
  exact ⟨fun h => ⟨h.slash, h.address, h.argument⟩, fun h => ⟨h.1, h.2.1, h.2.2⟩⟩

theorem encode_eq_ok_iff {m : OscMessage} {packet : Bytes} :
    encode m = .ok packet ↔ Writes m packet ∧ packet.length ≤ maxPacketSize := by
  rw [encode_eq, writes_iff, writable_iff]
  split
  · next hslash => exact ⟨nofun, fun h => absurd h.1.1.1 hslash⟩
  next hslash =>
  split
  · next hnul => exact ⟨nofun, fun h => absurd hnul h.1.1.2⟩
  next hnul =>
  split
  · next hlarge =>
    refine ⟨nofun, ?_⟩
    rintro ⟨⟨-, rfl⟩, hsize⟩
    omega
  · next hsize =>
    rw [Except.ok.injEq]
    constructor
    · rintro rfl
      exact ⟨⟨⟨not_not.1 hslash, hnul⟩, rfl⟩, by omega⟩
    · exact fun h => h.1.2.symm

theorem encode_eq_error_iff {m : OscMessage} {e : EncodeError} :
    encode m = .error e ↔ Refused m e := by
  rw [encode_eq]
  split
  · next hslash =>
    rw [Except.error.injEq]
    constructor
    · rintro rfl
      exact ⟨hslash, rfl⟩
    · intro h
      cases e with
      | addressWithoutSlash address => rw [h.2]
      | containsNul => exact absurd h.1 hslash
      | tooLarge size =>
        obtain ⟨packet, hwrites, -⟩ := h
        exact absurd hwrites.writable.slash hslash
  next hslash =>
  split
  · next hnul =>
    rw [Except.error.injEq]
    constructor
    · rintro rfl
      exact ⟨not_not.1 hslash, hnul⟩
    · intro h
      cases e with
      | addressWithoutSlash address => exact absurd h.1 hslash
      | containsNul => rfl
      | tooLarge size =>
        obtain ⟨packet, hwrites, -⟩ := h
        exact absurd hnul ((writable_iff m).1 hwrites.writable).2
  next hnul =>
  have hwrites : Writes m (packetOf m) :=
    writes_iff.2 ⟨(writable_iff m).2 ⟨not_not.1 hslash, hnul⟩, rfl⟩
  split
  · next hlarge =>
    rw [Except.error.injEq]
    constructor
    · rintro rfl
      exact ⟨packetOf m, hwrites, hlarge, rfl⟩
    · intro h
      cases e with
      | addressWithoutSlash address => exact absurd h.1 hslash
      | containsNul => exact absurd h.2 hnul
      | tooLarge size =>
        obtain ⟨packet, hpacket, -, rfl⟩ := h
        rw [(writes_iff.1 hpacket).2]
  · next hsize =>
    refine ⟨nofun, fun h => ?_⟩
    cases e with
    | addressWithoutSlash address => exact absurd h.1 hslash
    | containsNul => exact absurd h.2 hnul
    | tooLarge size =>
      obtain ⟨packet, hpacket, hlarge, -⟩ := h
      rw [(writes_iff.1 hpacket).2] at hlarge
      exact absurd hlarge hsize

/-! ## The result -/

/-- The format, in both directions. Reading gives a message for its packet and for nothing else.
    Writing gives the packet of a message if there is one of at most 65507 bytes, and says what
    is wrong in every other case. So each undoes the other, and two messages never have the same
    packet. -/
theorem exact_format (m : OscMessage) (packet : Bytes) :
    (decode packet = .ok m ↔ Writes m packet) ∧
    (encode m = .ok packet ↔ Writes m packet ∧ packet.length ≤ 65507) ∧
    (∀ e, encode m = .error e ↔ Refused m e) ∧
    ((¬∃ p, Writes m p ∧ p.length ≤ 65507) → ∃ e, encode m = .error e) ∧
    (encode m = .ok packet → decode packet = .ok m) ∧
    (decode packet = .ok m → packet.length ≤ 65507 → encode m = .ok packet) ∧
    ∀ other, Writes m packet → Writes other packet → m = other := by
  refine ⟨decode_eq_ok_iff, encode_eq_ok_iff, fun e => encode_eq_error_iff, ?_, ?_, ?_, ?_⟩
  · intro hnone
    cases hencode : encode m with
    | error e => exact ⟨e, rfl⟩
    | ok p => exact absurd ⟨p, encode_eq_ok_iff.1 hencode⟩ hnone
  · exact fun h => decode_eq_ok_iff.2 (encode_eq_ok_iff.1 h).1
  · exact fun h hsize => encode_eq_ok_iff.2 ⟨decode_eq_ok_iff.1 h, hsize⟩
  · intro other hm hother
    have heq := (decode_eq_ok_iff.2 hm).symm.trans (decode_eq_ok_iff.2 hother)
    exact Except.ok.inj heq

end ShowRelay.Osc
