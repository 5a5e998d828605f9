/-
  ShowRelay.Proofs.Http.Pieces

  A text with escapes as a sequence of bytes. Every byte but that of the percent
  sign is a piece by itself; a percent sign is the first byte of a piece of three,
  whose other two are hexadecimal digits. A text is read exactly if its bytes can
  be cut into such pieces and what these stand for is text again
  (`Http.unescape?_eq_some_iff`).

  The text is read by characters and the pieces are made of bytes. The two agree
  because a percent sign and digits are ASCII: their bytes occur in no other
  character, so that no piece of three bytes begins or ends within one. There is
  only one way to cut (`Http.Piece.exists_append`), and cutting goes on until the
  bytes end or an escape is malformed (`Http.exists_cut`). Hence a text that is
  not read has a fault of one of four kinds (`Http.unescape?_eq_none_iff`).
-/

import ShowRelay.Http.Percent
import ShowRelay.Proofs.Text
import ShowRelay.Proofs.Utf8

namespace ShowRelay.Http

/-! ## Digits -/

/-- A byte that is a hexadecimal digit in ASCII, in either case. -/
def IsHexDigit (b : UInt8) : Prop :=
  0x30 ≤ b ∧ b ≤ 0x39 ∨ 0x41 ≤ b ∧ b ≤ 0x46 ∨ 0x61 ≤ b ∧ b ≤ 0x66

instance (b : UInt8) : Decidable (IsHexDigit b) := inferInstanceAs (Decidable (_ ∨ _))

/-- The value of a hexadecimal digit. -/
def hexValue (b : UInt8) : Nat :=
  if b ≤ 0x39 then b.toNat - 0x30 else if b ≤ 0x46 then b.toNat - 0x37 else b.toNat - 0x57

/-- The byte that two hexadecimal digits write. -/
def writtenByte (high low : UInt8) : UInt8 := UInt8.ofNat (16 * hexValue high + hexValue low)

theorem isHexDigit_iff (b : UInt8) : IsHexDigit b ↔
    48 ≤ b.toNat ∧ b.toNat ≤ 57 ∨ 65 ≤ b.toNat ∧ b.toNat ≤ 70 ∨ 97 ≤ b.toNat ∧ b.toNat ≤ 102 := by
  simp only [IsHexDigit, UInt8.le_iff_toNat_le]
  rfl

theorem IsHexDigit.ascii {b : UInt8} (h : IsHexDigit b) : b.toNat < 128 := by
  rw [isHexDigit_iff] at h
  omega

theorem hexValue_eq (b : UInt8) : hexValue b =
    if b.toNat ≤ 57 then b.toNat - 48 else if b.toNat ≤ 70 then b.toNat - 55 else b.toNat - 87 := by
  simp only [hexValue, UInt8.le_iff_toNat_le]
  rfl

/-- The characters that count as digits are those of the bytes that do. -/
theorem digitValue?_eq_some_iff {c : Char} {n : Nat} :
    Text.digitValue? 16 c = some n ↔
      ∃ b, c.toNat = b.toNat ∧ IsHexDigit b ∧ hexValue b = n := by
  rw [Text.digitValue?_sixteen]
  constructor
  · intro h
    have hlt : c.toNat < 128 := by grind
    have hnat : (UInt8.ofNat c.toNat).toNat = c.toNat := by
      rw [UInt8.toNat_ofNat', Nat.mod_eq_of_lt (by omega)]
    refine ⟨UInt8.ofNat c.toNat, hnat.symm, ?_, ?_⟩
    · rw [isHexDigit_iff, hnat]
      grind
    · rw [hexValue_eq, hnat]
      grind
  · rintro ⟨b, hc, hb, rfl⟩
    rw [isHexDigit_iff] at hb
    rw [hc, hexValue_eq]
    grind

theorem escapedByte?_eq_some_iff {high low : Char} {byte : UInt8} :
    escapedByte? high low = some byte ↔
      ∃ h l, high.toNat = h.toNat ∧ low.toNat = l.toNat ∧ IsHexDigit h ∧ IsHexDigit l ∧
        writtenByte h l = byte := by
  simp only [escapedByte?, Option.bind_eq_bind, Option.pure_def, Option.bind_eq_some_iff,
    Option.some.injEq, digitValue?_eq_some_iff]
  constructor
  · rintro ⟨_, ⟨h, hhigh, hh, rfl⟩, _, ⟨l, hlow, hl, rfl⟩, rfl⟩
    exact ⟨h, l, hhigh, hlow, hh, hl, rfl⟩
  · rintro ⟨h, l, hhigh, hlow, hh, hl, rfl⟩
    exact ⟨_, ⟨h, hhigh, hh, rfl⟩, _, ⟨l, hlow, hl, rfl⟩, rfl⟩

/-! ## Pieces -/

/-- The byte of the percent sign. -/
def percent : UInt8 := 0x25

/-- A piece of the bytes of a text with escapes. -/
inductive Piece where
  -- A byte that stands for itself.
  | plain (byte : UInt8) (h : byte ≠ percent)
  -- A percent sign and two digits, which stand for the byte that these write.
  | escape (high low : UInt8) (hhigh : IsHexDigit high) (hlow : IsHexDigit low)

namespace Piece

/-- The bytes of a piece. -/
def written : Piece → Bytes
  | plain byte _ => [byte]
  | escape high low _ _ => [percent, high, low]

/-- The byte that a piece stands for. -/
def byte : Piece → UInt8
  | plain byte _ => byte
  | escape high low _ _ => writtenByte high low

/-- What a percent sign begins is an escape. -/
theorem exists_escape {pieces : List Piece} {rest : Bytes}
    (h : pieces.flatMap written = percent :: rest) :
    ∃ high low hhigh hlow tail, pieces = escape high low hhigh hlow :: tail ∧
      rest = high :: low :: tail.flatMap written := by
  match pieces with
  | [] => cases h
  | plain b hb :: tail => exact absurd (List.cons.inj h).1 hb
  | escape high low hhigh hlow :: tail =>
    exact ⟨high, low, hhigh, hlow, tail, rfl, (List.cons.inj h).2.symm⟩

/-- Bytes are cut in one way: the pieces that they begin with come first. -/
theorem exists_append {front pieces : List Piece} {rest : Bytes}
    (h : pieces.flatMap written = front.flatMap written ++ rest) :
    ∃ tail, pieces = front ++ tail ∧ tail.flatMap written = rest := by
  induction front generalizing pieces with
  | nil => exact ⟨pieces, rfl, h⟩
  | cons first front ih =>
    have hhead : ∃ tail, pieces = first :: tail ∧
        tail.flatMap written = front.flatMap written ++ rest := by
      cases first with
      | plain b hb =>
        match pieces with
        | [] => cases h
        | plain c hc :: tail =>
          obtain ⟨rfl, hrest⟩ := List.cons.inj h
          exact ⟨tail, rfl, hrest⟩
        | escape high low hhigh hlow :: tail => exact absurd (List.cons.inj h).1.symm hb
      | escape high low hhigh hlow =>
        obtain ⟨high', low', hhigh', hlow', tail, rfl, hrest⟩ := exists_escape h
        obtain ⟨rfl, hdigit⟩ := List.cons.inj hrest
        obtain ⟨rfl, htail⟩ := List.cons.inj hdigit
        exact ⟨tail, rfl, htail.symm⟩
    obtain ⟨tail, rfl, htail⟩ := hhead
    obtain ⟨tail, rfl, hrest⟩ := ih htail
    exact ⟨tail, rfl, hrest⟩

/-- Bytes without a percent sign are pieces that stand for themselves. -/
theorem exists_plain {bytes : Bytes} (h : percent ∉ bytes) :
    ∃ pieces : List Piece, pieces.flatMap written = bytes ∧ pieces.map byte = bytes := by
  induction bytes with
  | nil => exact ⟨[], rfl, rfl⟩
  | cons b bytes ih =>
    rw [List.mem_cons, not_or] at h
    obtain ⟨pieces, hwritten, hbyte⟩ := ih h.2
    exact ⟨plain b (Ne.symm h.1) :: pieces, congrArg (b :: ·) hwritten, congrArg (b :: ·) hbyte⟩

end Piece

/-! ## Reading -/

theorem percent_notMem_utf8EncodeChar {c : Char} (h : c ≠ '%') :
    percent ∉ String.utf8EncodeChar c := by
  intro hmem
  rw [Utf8.mem_utf8EncodeChar_iff (by decide)] at hmem
  exact h (Char.toNat_inj.1 hmem)

/-- What is read off a text is what pieces of its bytes stand for. -/
theorem exists_pieces {chars : List Char} {bytes : Bytes} (h : unescapedBytes? chars = some bytes) :
    ∃ pieces : List Piece, pieces.flatMap Piece.written = chars.flatMap String.utf8EncodeChar ∧
      pieces.map Piece.byte = bytes := by
  fun_induction unescapedBytes? chars generalizing bytes with
  | case1 =>
    cases h
    exact ⟨[], rfl, rfl⟩
  | case2 high low rest ih =>
    simp only [Option.bind_eq_bind, Option.pure_def, Option.bind_eq_some_iff,
      Option.some.injEq] at h
    obtain ⟨byte, hbyte, more, hmore, rfl⟩ := h
    obtain ⟨pieces, hwritten, rfl⟩ := ih hmore
    obtain ⟨first, second, hhigh, hlow, hfirst, hsecond, rfl⟩ := escapedByte?_eq_some_iff.1 hbyte
    have hchar : ∀ {c : Char} {b : UInt8}, c.toNat = b.toNat → IsHexDigit b →
        String.utf8EncodeChar c = [b] := by
      intro c b hc hb
      rw [Utf8.utf8EncodeChar_of_ascii (hc ▸ hb.ascii), hc, UInt8.ofNat_toNat]
    refine ⟨.escape first second hfirst hsecond :: pieces, ?_, rfl⟩
    simp only [List.flatMap_cons, hwritten, hchar hhigh hfirst, hchar hlow hsecond]
    rfl
  | case3 rest hshort => cases h
  | case4 c rest _ hc ih =>
    -- All bytes of such a character stand for themselves.
    obtain ⟨more, hmore, rfl⟩ := Option.map_eq_some_iff.1 h
    obtain ⟨pieces, hwritten, rfl⟩ := ih hmore
    obtain ⟨front, hfront, hbyte⟩ := Piece.exists_plain (percent_notMem_utf8EncodeChar hc)
    refine ⟨front ++ pieces, ?_, ?_⟩
    · rw [List.flatMap_append, hfront, hwritten, List.flatMap_cons]
    · rw [List.map_append, hbyte]

/-- A text whose bytes can be cut into pieces is read. -/
theorem unescapedBytes?_of_pieces {chars : List Char} {pieces : List Piece}
    (h : pieces.flatMap Piece.written = chars.flatMap String.utf8EncodeChar) :
    unescapedBytes? chars = some (pieces.map Piece.byte) := by
  fun_induction unescapedBytes? chars generalizing pieces with
  | case1 =>
    cases pieces with
    | nil => rfl
    | cons piece pieces => cases piece <;> cases h
  | case2 high low rest ih =>
    obtain ⟨first, second, hfirst, hsecond, tail, rfl, hrest⟩ := Piece.exists_escape h
    obtain ⟨hhigh, hrest⟩ := Utf8.head_of_ascii hfirst.ascii hrest
    obtain ⟨hlow, hrest⟩ := Utf8.head_of_ascii hsecond.ascii hrest
    rw [escapedByte?_eq_some_iff.2 ⟨first, second, hhigh, hlow, hfirst, hsecond, rfl⟩,
      ih hrest.symm]
    rfl
  | case3 rest hshort =>
    -- Two digits after the percent sign are two characters.
    obtain ⟨first, second, hfirst, hsecond, tail, -, hrest⟩ := Piece.exists_escape h
    match rest with
    | [] => cases hrest
    | high :: rest =>
      obtain ⟨-, hrest⟩ := Utf8.head_of_ascii hfirst.ascii hrest
      match rest with
      | [] => cases hrest
      | low :: rest => exact absurd rfl (hshort high low rest rfl)
  | case4 c rest _ hc ih =>
    -- The pieces could be cut across characters, if there were another way to cut these bytes.
    obtain ⟨front, hfront, hbyte⟩ := Piece.exists_plain (percent_notMem_utf8EncodeChar hc)
    rw [List.flatMap_cons, ← hfront] at h
    obtain ⟨tail, rfl, hrest⟩ := Piece.exists_append h
    rw [ih hrest, Option.map_some, List.map_append, hbyte]

theorem unescape?_of_pieces {s : String} {pieces : List Piece}
    (h : pieces.flatMap Piece.written = Utf8.encode s) :
    unescape? s.toList = Utf8.decode? (pieces.map Piece.byte) := by
  rw [Utf8.encode_eq_flatMap] at h
  rw [unescape?, unescapedBytes?_of_pieces h]
  rfl

/-- A text is read exactly if its bytes can be cut into pieces, as what these stand for. -/
theorem unescape?_eq_some_iff {s t : String} :
    unescape? s.toList = some t ↔
      ∃ pieces : List Piece, pieces.flatMap Piece.written = Utf8.encode s ∧
        pieces.map Piece.byte = Utf8.encode t := by
  constructor
  · intro h
    obtain ⟨bytes, hbytes, htext⟩ := Option.bind_eq_some_iff.1 h
    obtain ⟨pieces, hwritten, rfl⟩ := exists_pieces hbytes
    exact ⟨pieces, by rw [hwritten, Utf8.encode_eq_flatMap], Utf8.decode?_eq_some_iff.1 htext⟩
  · rintro ⟨pieces, hwritten, hbytes⟩
    rw [unescape?_of_pieces hwritten, hbytes, Utf8.decode?_encode]

/-! ## Faults -/

/-- Bytes that begin with a percent sign, but with no escape. -/
def Malformed (bytes : Bytes) : Prop :=
  ∃ rest, bytes = percent :: rest ∧
    ∀ high low tail, rest = high :: low :: tail → ¬(IsHexDigit high ∧ IsHexDigit low)

/-- Bytes can be cut until they end or an escape is malformed. -/
theorem exists_cut : ∀ bytes : Bytes, ∃ (front : List Piece) (rest : Bytes),
    bytes = front.flatMap Piece.written ++ rest ∧ (rest = [] ∨ Malformed rest)
  | [] => ⟨[], [], rfl, .inl rfl⟩
  | b :: rest => by
    by_cases hb : b = percent
    · by_cases hdigits : ∃ high low tail, rest = high :: low :: tail ∧
          IsHexDigit high ∧ IsHexDigit low
      · obtain ⟨high, low, tail, rfl, hhigh, hlow⟩ := hdigits
        obtain ⟨front, last, rfl, hlast⟩ := exists_cut tail
        exact ⟨.escape high low hhigh hlow :: front, last, by rw [hb]; rfl, hlast⟩
      · refine ⟨[], b :: rest, rfl, .inr ⟨rest, by rw [hb], ?_⟩⟩
        rintro high low tail rfl hboth
        exact hdigits ⟨high, low, tail, rfl, hboth⟩
    · obtain ⟨front, last, rfl, hlast⟩ := exists_cut rest
      exact ⟨.plain b hb :: front, last, rfl, hlast⟩
termination_by bytes => bytes.length

/-- What keeps the bytes of a text from being read. -/
inductive Unreadable (bytes : Bytes) : Prop where
  -- The text ends before an escape does.
  | cutShort (front : List Piece) (rest : Bytes)
      (h : bytes = front.flatMap Piece.written ++ percent :: rest) (hrest : rest.length < 2)
  -- A sign, or another character of ASCII that is no digit, stands in an escape.
  | noDigit (front : List Piece) (high low : UInt8) (rest : Bytes)
      (h : bytes = front.flatMap Piece.written ++ percent :: high :: low :: rest)
      (hdigit : high.toNat < 128 ∧ ¬IsHexDigit high ∨ low.toNat < 128 ∧ ¬IsHexDigit low)
  -- A character of several bytes stands in an escape, or begins there.
  | longCharacter (front : List Piece) (high low : UInt8) (rest : Bytes)
      (h : bytes = front.flatMap Piece.written ++ percent :: high :: low :: rest)
      (hlong : 128 ≤ high.toNat ∨ 128 ≤ low.toNat)
  -- The pieces stand for bytes that are no text.
  | noText (pieces : List Piece) (h : bytes = pieces.flatMap Piece.written)
      (htext : ∀ t, Utf8.encode t ≠ pieces.map Piece.byte)

theorem unreadable_of_malformed {bytes rest : Bytes} {front : List Piece}
    (h : bytes = front.flatMap Piece.written ++ rest) (hrest : Malformed rest) :
    Unreadable bytes := by
  obtain ⟨rest, rfl, hdigits⟩ := hrest
  match rest with
  | [] => exact .cutShort front [] h (by decide)
  | [b] => exact .cutShort front [b] h (by simp)
  | high :: low :: tail =>
    by_cases hlong : 128 ≤ high.toNat ∨ 128 ≤ low.toNat
    · exact .longCharacter front high low tail h hlong
    · rw [not_or, Nat.not_le, Nat.not_le] at hlong
      refine .noDigit front high low tail h ?_
      rcases not_and_or.1 (hdigits high low tail rfl) with hhigh | hlow
      · exact .inl ⟨hlong.1, hhigh⟩
      · exact .inr ⟨hlong.2, hlow⟩

/-- An escape that is reached has two digits if the bytes can be cut to their end. -/
theorem exists_digits {front pieces : List Piece} {rest : Bytes}
    (h : pieces.flatMap Piece.written = front.flatMap Piece.written ++ percent :: rest) :
    ∃ high low tail, rest = high :: low :: tail ∧ IsHexDigit high ∧ IsHexDigit low := by
  obtain ⟨tail, -, hrest⟩ := Piece.exists_append h
  obtain ⟨high, low, hhigh, hlow, tail, -, rfl⟩ := Piece.exists_escape hrest
  exact ⟨high, low, _, rfl, hhigh, hlow⟩

theorem unescape?_of_malformed {s : String} {front : List Piece} {rest : Bytes}
    (h : Utf8.encode s = front.flatMap Piece.written ++ rest) (hrest : Malformed rest) :
    unescape? s.toList = none := by
  obtain ⟨rest, rfl, hdigits⟩ := hrest
  rw [Option.eq_none_iff_forall_ne_some]
  intro t ht
  obtain ⟨pieces, hwritten, -⟩ := unescape?_eq_some_iff.1 ht
  obtain ⟨high, low, tail, rfl, hboth⟩ := exists_digits (hwritten.trans h)
  exact hdigits high low tail rfl hboth

/-- A text that is not read has a fault, and no text with a fault is read. -/
theorem unescape?_eq_none_iff {s : String} :
    unescape? s.toList = none ↔ Unreadable (Utf8.encode s) := by
  constructor
  · intro hnone
    obtain ⟨front, rest, hcut, rfl | hrest⟩ := exists_cut (Utf8.encode s)
    · rw [List.append_nil] at hcut
      refine .noText front hcut fun t ht => ?_
      rw [unescape?_eq_some_iff.2 ⟨front, hcut.symm, ht.symm⟩] at hnone
      cases hnone
    · exact unreadable_of_malformed hcut hrest
  · rintro (⟨front, rest, hcut, hshort⟩ | ⟨front, high, low, rest, hcut, hdigit⟩ |
      ⟨front, high, low, rest, hcut, hlong⟩ | ⟨pieces, hcut, htext⟩)
    · refine unescape?_of_malformed hcut ⟨rest, rfl, ?_⟩
      rintro high low tail rfl
      simp only [List.length_cons] at hshort
      omega
    · refine unescape?_of_malformed hcut ⟨_, rfl, ?_⟩
      rintro _ _ _ ⟨⟩ ⟨hhigh, hlow⟩
      rcases hdigit with ⟨-, hno⟩ | ⟨-, hno⟩
      · exact hno hhigh
      · exact hno hlow
    · refine unescape?_of_malformed hcut ⟨_, rfl, ?_⟩
      rintro _ _ _ ⟨⟩ ⟨hhigh, hlow⟩
      have hascii := And.intro hhigh.ascii hlow.ascii
      omega
    · rw [unescape?_of_pieces hcut.symm, Option.eq_none_iff_forall_ne_some]
      intro t ht
      exact htext t (Utf8.decode?_eq_some_iff.1 ht).symm

end ShowRelay.Http
