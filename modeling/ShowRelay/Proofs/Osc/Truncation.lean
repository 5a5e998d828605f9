/-
  ShowRelay.Proofs.Osc.Truncation

  Packets that are cut short, and packets with something after them. Three
  strings are read one after the other, and a cut concerns exactly one of them:
  those before it are read as ever (`Osc.readString_take_of_le`), and those after
  it are gone. So all is decided by the one string that is cut
  (`Osc.readString_take_of_lt`).

  Within the text of a string, and where no byte of it is left, no NUL ends it;
  within its padding a NUL does, but the string is not complete. Only in the
  second case does the refusal speak of bytes that are missing, although some
  are missing in every case.
-/

import ShowRelay.Proofs.Osc

namespace ShowRelay.Osc

/-! ## One string -/

theorem takeWhile_append_zero {text : Bytes} (h : 0 ∉ text) (rest : Bytes) :
    (text ++ 0 :: rest).takeWhile (· ≠ 0) = text := by
  have hkept : ∀ b ∈ text, decide (b ≠ 0) = true := by
    intro b hb
    rw [decide_eq_true_iff]
    rintro rfl
    exact h hb
  rw [List.takeWhile_append_of_pos hkept, List.takeWhile_cons_of_neg (by decide), List.append_nil]

/-- Without a NUL there is no string. -/
theorem readString_of_zero_notMem {bytes : Bytes} (h : 0 ∉ bytes) :
    readString bytes = .error .unterminated := by
  have hall : bytes.takeWhile (· ≠ 0) = bytes := by
    rw [List.takeWhile_eq_self_iff]
    intro b hb
    rw [decide_eq_true_iff]
    rintro rfl
    exact h hb
  simp only [readString, hall, if_true]

/-- A text with some of the NULs that should follow it, but not with all. -/
theorem readString_of_short {text : Bytes} (h : 0 ∉ text) {more : Nat}
    (hmore : text.length + 1 + more < paddedLength text.length) :
    readString (text ++ 0 :: List.replicate more 0) = .error .truncated := by
  have hlength : (text ++ 0 :: List.replicate more 0).length = text.length + 1 + more := by
    rw [List.length_append, List.length_cons, List.length_replicate]
    omega
  simp only [readString, takeWhile_append_zero h, hlength]
  rw [if_neg (by omega), if_pos hmore]

section

variable {s : String} (hs : '\x00' ∉ s.toList) (rest : Bytes) {kept : Nat}
include hs

/-- A string is read as ever from the front of some bytes when all of it is kept. -/
theorem readString_take_of_le (hkept : (pad (Utf8.encode s)).length ≤ kept) :
    readString ((pad (Utf8.encode s) ++ rest).take kept) =
      .ok (s, rest.take (kept - (pad (Utf8.encode s)).length)) := by
  rw [List.take_append, List.take_of_length_le hkept]
  exact readString_eq_ok_iff.2 ⟨hs, rfl⟩

/-- A string that is cut is missing its end, or else some of its padding. -/
theorem readString_take_of_lt (hkept : kept < (pad (Utf8.encode s)).length) :
    ∃ fault, readString ((pad (Utf8.encode s) ++ rest).take kept) = .error fault ∧
      (fault = .truncated ∨ fault = .unterminated) ∧
      (fault = .truncated ↔ (Utf8.encode s).length < kept) := by
  have hzero : 0 ∉ Utf8.encode s := fun h => hs ((Utf8.zero_mem_encode_iff s).1 h)
  have hlength := length_pad (Utf8.encode s)
  by_cases htext : kept ≤ (Utf8.encode s).length
  · refine ⟨.unterminated, ?_, .inr rfl, by simpa using htext⟩
    rw [pad, List.append_assoc, List.take_append_of_le_length htext]
    exact readString_of_zero_notMem fun h => hzero (List.mem_of_mem_take h)
  · refine ⟨.truncated, ?_, .inl rfl, by simpa using htext⟩
    have hnuls : (pad (Utf8.encode s) ++ rest).take kept =
        Utf8.encode s ++ 0 :: List.replicate (kept - (Utf8.encode s).length - 1) 0 := by
      rw [List.take_append_of_le_length (by omega), pad, List.take_append,
        List.take_of_length_le (by omega), List.take_replicate, ← List.replicate_succ]
      congr 2
      omega
    rw [hnuls]
    exact readString_of_short hzero (by omega)

end

/-! ## Packets -/

/-- Some strings as a packet holds them, one padded string after the other. -/
def written (strings : List String) : Bytes := strings.flatMap fun s => pad (Utf8.encode s)

/-- The strings of a packet. -/
def strings (m : OscMessage) : List String := [m.address, stringTag, m.argument]

/-- The first `kept` bytes of a packet end within the padding of one of its strings: at least one
    NUL of it is kept, but not all of them are. -/
def EndsInPadding (m : OscMessage) (kept : Nat) : Prop :=
  ∃ before s after, strings m = before ++ s :: after ∧
    (written before).length + (Utf8.encode s).length < kept ∧
    kept < (written (before ++ [s])).length

/-- Where the three paddings are. -/
theorem endsInPadding_iff {m : OscMessage} {kept a t r : Nat}
    (ha : (pad (Utf8.encode m.address)).length = a) (ht : (pad (Utf8.encode stringTag)).length = t)
    (hr : (pad (Utf8.encode m.argument)).length = r) :
    EndsInPadding m kept ↔
      ((Utf8.encode m.address).length < kept ∧ kept < a) ∨
      (a + (Utf8.encode stringTag).length < kept ∧ kept < a + t) ∨
      (a + t + (Utf8.encode m.argument).length < kept ∧ kept < a + t + r) := by
  subst ha ht hr
  constructor
  · rintro ⟨before, s, after, hsplit, hlow, hhigh⟩
    match before, hsplit with
    | [], hsplit =>
      cases hsplit
      simp only [written, List.flatMap_nil, List.flatMap_cons, List.nil_append,
        List.append_nil, List.length_nil] at hlow hhigh
      exact .inl (by omega)
    | [_], hsplit =>
      cases hsplit
      simp only [written, List.flatMap_nil, List.flatMap_cons, List.cons_append, List.nil_append,
        List.append_nil, List.length_append] at hlow hhigh
      exact .inr (.inl (by omega))
    | [_, _], hsplit =>
      cases hsplit
      simp only [written, List.flatMap_nil, List.flatMap_cons, List.cons_append, List.nil_append,
        List.append_nil, List.length_append] at hlow hhigh
      exact .inr (.inr (by omega))
    | _ :: _ :: _ :: _, hsplit => simp [strings] at hsplit
  · have hone : ∀ s, written [s] = pad (Utf8.encode s) := fun s => by simp [written]
    have htwo : ∀ s t, written [s, t] = pad (Utf8.encode s) ++ pad (Utf8.encode t) :=
      fun s t => by simp [written]
    rintro (⟨hlow, hhigh⟩ | ⟨hlow, hhigh⟩ | ⟨hlow, hhigh⟩)
    · exact ⟨[], m.address, _, rfl, by simpa [written] using hlow, by simpa [written] using hhigh⟩
    · refine ⟨[m.address], stringTag, _, rfl, ?_, ?_⟩
      · rw [hone]
        exact hlow
      · simpa [written] using hhigh
    · refine ⟨[m.address, stringTag], m.argument, _, rfl, ?_, ?_⟩
      · rw [htwo, List.length_append]
        exact hlow
      · simpa [written, Nat.add_assoc] using hhigh

instance (m : OscMessage) (kept : Nat) : Decidable (EndsInPadding m kept) :=
  decidable_of_iff _ (endsInPadding_iff rfl rfl rfl).symm

section

variable {bytes rest rest' : Bytes} {m : OscMessage} {fault : StringFault}

/-- The refusal of a string is the refusal of the packet. -/
theorem decode_of_address (h : readString bytes = .error fault) :
    decode bytes = .error (.string fault) := by
  simp [decode, h, Except.mapError, Bind.bind, Except.bind]

theorem decode_of_tag (hslash : m.address.toList.head? = some '/')
    (haddress : readString bytes = .ok (m.address, rest)) (h : readString rest = .error fault) :
    decode bytes = .error (.string fault) := by
  have hslash' : isAddress m.address = true := (isAddress_iff _).2 hslash
  simp [decode, haddress, h, hslash', Except.mapError, Bind.bind, Except.bind]

theorem decode_of_argument (hslash : m.address.toList.head? = some '/')
    (haddress : readString bytes = .ok (m.address, rest))
    (htag : readString rest = .ok (stringTag, rest')) (h : readString rest' = .error fault) :
    decode bytes = .error (.string fault) := by
  have hslash' : isAddress m.address = true := (isAddress_iff _).2 hslash
  simp [decode, haddress, htag, h, hslash', Except.mapError, Bind.bind, Except.bind]

theorem decode_of_rest (hslash : m.address.toList.head? = some '/')
    (haddress : readString bytes = .ok (m.address, rest))
    (htag : readString rest = .ok (stringTag, rest')) {more : Bytes} (hmore : more ≠ [])
    (hargument : readString rest' = .ok (m.argument, more)) :
    decode bytes = .error (.trailing more.length) := by
  have hslash' : isAddress m.address = true := (isAddress_iff _).2 hslash
  simp [decode, haddress, htag, hargument, hslash', hmore, Except.mapError, Bind.bind,
    Except.bind, throw, throwThe, MonadExceptOf.throw]

end

section

variable {m : OscMessage} (hm : Writable m)
include hm

/-- A packet that is cut is refused for the string in which it ends. -/
theorem decode_take_packetOf {kept : Nat} (hkept : kept < (packetOf m).length) :
    ∃ fault, decode ((packetOf m).take kept) = .error (.string fault) ∧
      (fault = .truncated ∨ fault = .unterminated) ∧
      (fault = .truncated ↔ EndsInPadding m kept) := by
  have htag : '\x00' ∉ stringTag.toList := by decide
  rw [endsInPadding_iff rfl rfl rfl]
  rw [packetOf, List.append_assoc] at hkept ⊢
  rw [List.length_append, List.length_append] at hkept
  -- The cut is in the address, in the tag or in the argument.
  by_cases ha : kept < (pad (Utf8.encode m.address)).length
  · obtain ⟨fault, hread, hfault, hiff⟩ := readString_take_of_lt hm.address
      (pad (Utf8.encode stringTag) ++ pad (Utf8.encode m.argument)) ha
    refine ⟨fault, decode_of_address hread, hfault, hiff.trans ?_⟩
    omega
  have haddress := readString_take_of_le hm.address
    (pad (Utf8.encode stringTag) ++ pad (Utf8.encode m.argument)) (Nat.le_of_not_lt ha)
  by_cases ht : kept - (pad (Utf8.encode m.address)).length < (pad (Utf8.encode stringTag)).length
  · obtain ⟨fault, hread, hfault, hiff⟩ := readString_take_of_lt htag
      (pad (Utf8.encode m.argument)) ht
    refine ⟨fault, decode_of_tag hm.slash haddress hread, hfault, hiff.trans ?_⟩
    omega
  have htagged := readString_take_of_le htag (pad (Utf8.encode m.argument)) (Nat.le_of_not_lt ht)
  have hr : kept - (pad (Utf8.encode m.address)).length - (pad (Utf8.encode stringTag)).length <
      (pad (Utf8.encode m.argument)).length := by omega
  obtain ⟨fault, hread, hfault, hiff⟩ := readString_take_of_lt hm.argument [] hr
  rw [List.append_nil] at hread
  refine ⟨fault, decode_of_argument hm.slash haddress htagged hread, hfault, hiff.trans ?_⟩
  omega

/-- Bytes after a packet are counted. -/
theorem decode_packetOf_append {more : Bytes} (hmore : more ≠ []) :
    decode (packetOf m ++ more) = .error (.trailing more.length) := by
  have htag : '\x00' ∉ stringTag.toList := by decide
  refine decode_of_rest hm.slash (readString_eq_ok_iff.2 ⟨hm.address, ?_⟩)
    (readString_eq_ok_iff.2 ⟨htag, rfl⟩) hmore (readString_eq_ok_iff.2 ⟨hm.argument, rfl⟩)
  rw [packetOf, List.append_assoc, List.append_assoc]

end

/-! ## The result -/

/-- A packet says where it ends. Each proper beginning of it is refused, as too short if it ends
    within the padding of a string and as not terminated if it ends anywhere else; with anything
    after it the packet is refused for what is left over. So no packet that can be read is the
    beginning of another. -/
theorem self_delimiting {packet : Bytes} {m : OscMessage} (h : decode packet = .ok m) :
    (∀ kept < packet.length, ∃ e, decode (packet.take kept) = .error e ∧
      (e.isTruncation = true ↔ EndsInPadding m kept) ∧
      (e.isTruncation = false → e = .string .unterminated)) ∧
    (∀ more ≠ [], ∃ e, decode (packet ++ more) = .error e ∧ e.isTruncation = false ∧
      e = .trailing more.length) ∧
    (∀ other n, decode other = .ok n → packet <+: other → other = packet) := by
  obtain ⟨hm, rfl⟩ := writes_iff.1 (decode_eq_ok_iff.1 h)
  refine ⟨?_, ?_, ?_⟩
  · intro kept hkept
    obtain ⟨fault, hread, hfault, hiff⟩ := decode_take_packetOf hm hkept
    refine ⟨.string fault, hread, ?_, ?_⟩
    · rw [← hiff]
      rcases hfault with rfl | rfl
      · exact ⟨fun _ => rfl, fun _ => rfl⟩
      · exact ⟨nofun, nofun⟩
    · rcases hfault with rfl | rfl
      · nofun
      · exact fun _ => rfl
  · intro more hmore
    exact ⟨_, decode_packetOf_append hm hmore, rfl, rfl⟩
  · rintro other n hother ⟨more, rfl⟩
    by_contra hne
    have hmore : more ≠ [] := by
      rintro rfl
      exact hne (List.append_nil _)
    rw [decode_packetOf_append hm hmore] at hother
    cases hother

/-- A packet of three strings with four, two and one NULs: cut after the first of the four, cut
    between two strings, and followed by four NULs more. -/
theorem self_delimiting_of_accent :
    decode [47, 97, 98, 99, 0, 0, 0, 0, 44, 115, 0, 0, 195, 169, 49, 0] =
      .ok ⟨"/abc", "é1"⟩ ∧
    (∃ e, decode [47, 97, 98, 99, 0] = .error e ∧ e.isTruncation = true) ∧
    (∃ e, decode [47, 97, 98, 99, 0, 0, 0, 0] = .error e ∧ e = .string .unterminated) ∧
    ∃ e, decode [47, 97, 98, 99, 0, 0, 0, 0, 44, 115, 0, 0, 195, 169, 49, 0, 0, 0, 0, 0] =
      .error e ∧ e = .trailing 4 := by
  have h : decode [47, 97, 98, 99, 0, 0, 0, 0, 44, 115, 0, 0, 195, 169, 49, 0] =
      .ok ⟨"/abc", "é1"⟩ := by decide
  obtain ⟨hcut, hmore, -⟩ := self_delimiting h
  obtain ⟨within, hwithin, hshort, -⟩ := hcut 5 (by decide)
  obtain ⟨between, hbetween, hwhole, hreason⟩ := hcut 8 (by decide)
  obtain ⟨after, hafter, -, hcount⟩ := hmore [0, 0, 0, 0] (by decide)
  have hapart : between.isTruncation = false := by
    rw [← Bool.not_eq_true, hwhole]
    decide
  exact ⟨h, ⟨within, hwithin, hshort.2 (by decide)⟩, ⟨between, hbetween, hreason hapart⟩,
    after, hafter, hcount⟩

end ShowRelay.Osc
