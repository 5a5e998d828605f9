/-
  ShowRelay.Proofs.Utf8

  Text as bytes, one character after the other. The bytes of a character are
  digits of its number. An ASCII byte is written for its own character and for no
  other, so that it stands between two places at which the text can be cut
  (`Utf8.exists_of_ascii`); no character but NUL has a zero byte. Of two
  characters the smaller has the smaller bytes, and so it is with texts
  (`Utf8.encode_lt_encode`): sorting by code points sorts by bytes.
-/

import ShowRelay.Text.Utf8

namespace ShowRelay.Utf8

/-! ## Characters in turn -/

theorem encode_ofList (chars : List Char) :
    encode (String.ofList chars) = chars.flatMap String.utf8EncodeChar := by
  rw [encode, String.toByteArray_ofList]
  simp [List.utf8Encode]

theorem encode_eq_flatMap (s : String) : encode s = s.toList.flatMap String.utf8EncodeChar := by
  rw [← encode_ofList, String.ofList_toList]

theorem encode_append (s t : String) : encode (s ++ t) = encode s ++ encode t := by
  rw [encode_eq_flatMap, String.toList_append, List.flatMap_append, ← encode_eq_flatMap,
    ← encode_eq_flatMap]

/-- Characters are at most the last code point. -/
theorem toNat_val_lt (c : Char) : c.val.toNat < 1114112 := by
  have hvalid := c.valid
  rw [UInt32.isValidChar, Nat.isValidChar] at hvalid
  omega

theorem length_encode (s : String) : (encode s).length = s.utf8ByteSize := by
  rw [encode, Array.length_toList]
  rfl

/-! ## ASCII -/

theorem utf8EncodeChar_of_ascii {c : Char} (h : c.toNat < 128) :
    String.utf8EncodeChar c = [UInt8.ofNat c.toNat] := by
  have hle : c.val.toNat ≤ 127 := Nat.le_of_lt_succ h
  rw [String.utf8EncodeChar, if_pos hle]
  rfl

/-- A text of ASCII characters has as many bytes as characters. -/
theorem length_encode_of_ascii {s : String} (h : ∀ c ∈ s.toList, c.toNat < 128) :
    (encode s).length = s.length := by
  rw [encode_eq_flatMap, ← String.length_toList]
  generalize s.toList = chars at h ⊢
  induction chars with
  | nil => rfl
  | cons c chars ih =>
    have hrest := ih fun d hd => h d (List.mem_cons_of_mem c hd)
    rw [List.flatMap_cons, List.length_append, hrest,
      utf8EncodeChar_of_ascii (h c List.mem_cons_self), List.length_singleton, List.length_cons,
      Nat.add_comm]

/-- The bytes of a character outside ASCII are all outside it. -/
theorem le_of_mem_utf8EncodeChar {c : Char} (h : 128 ≤ c.toNat) {b : UInt8}
    (hb : b ∈ String.utf8EncodeChar c) : 128 ≤ b.toNat := by
  have hge : 128 ≤ c.val.toNat := h
  have hmax := toNat_val_lt c
  rw [String.utf8EncodeChar, if_neg (by omega)] at hb
  split at hb
  · simp only [List.mem_cons, List.not_mem_nil, or_false] at hb
    rcases hb with rfl | rfl <;> rw [UInt8.toNat_ofNat'] <;> omega
  · split at hb
    · simp only [List.mem_cons, List.not_mem_nil, or_false] at hb
      rcases hb with rfl | rfl | rfl <;> rw [UInt8.toNat_ofNat'] <;> omega
    · simp only [List.mem_cons, List.not_mem_nil, or_false] at hb
      rcases hb with rfl | rfl | rfl | rfl <;> rw [UInt8.toNat_ofNat'] <;> omega

/-- An ASCII byte is written for its own character only. -/
theorem mem_utf8EncodeChar_iff {c : Char} {b : UInt8} (hb : b.toNat < 128) :
    b ∈ String.utf8EncodeChar c ↔ c.toNat = b.toNat := by
  by_cases hc : c.toNat < 128
  · rw [utf8EncodeChar_of_ascii hc, List.mem_singleton, ← UInt8.toNat_inj, UInt8.toNat_ofNat',
      Nat.mod_eq_of_lt (by omega)]
    exact eq_comm
  · constructor
    · intro hmem
      have hle := le_of_mem_utf8EncodeChar (Nat.le_of_not_lt hc) hmem
      omega
    · omega

/-- An ASCII byte is the first character, or it comes after all bytes of this one. -/
theorem cases_of_ascii {c : Char} {rest front back : Bytes} {b : UInt8} (hb : b.toNat < 128)
    (h : String.utf8EncodeChar c ++ rest = front ++ b :: back) :
    (front = [] ∧ c.toNat = b.toNat ∧ rest = back) ∨
      ∃ more, front = String.utf8EncodeChar c ++ more ∧ rest = more ++ b :: back := by
  by_cases hc : c.toNat = b.toNat
  · rw [utf8EncodeChar_of_ascii (hc ▸ hb)] at h ⊢
    cases front with
    | nil => exact .inl ⟨rfl, hc, (List.cons.inj h).2⟩
    | cons x more =>
      obtain ⟨rfl, hrest⟩ := List.cons.inj h
      exact .inr ⟨more, rfl, hrest⟩
  · right
    rcases List.append_eq_append_iff.1 h with ⟨more, hfront, hrest⟩ | ⟨more, hbytes, hrest⟩
    · exact ⟨more, hfront, hrest⟩
    · cases more with
      | nil => exact ⟨[], by rw [hbytes, List.append_nil, List.append_nil], hrest.symm⟩
      | cons x more =>
        -- Then the byte is one of the character's, and these do not contain it.
        obtain ⟨rfl, -⟩ := List.cons.inj hrest
        have hmem : b ∈ String.utf8EncodeChar c := by
          rw [hbytes]
          exact List.mem_append_right front List.mem_cons_self
        exact absurd ((mem_utf8EncodeChar_iff hb).1 hmem) hc

/-- An ASCII byte that comes first is the first character. -/
theorem head_of_ascii {c : Char} {rest back : Bytes} {b : UInt8} (hb : b.toNat < 128)
    (h : String.utf8EncodeChar c ++ rest = b :: back) : c.toNat = b.toNat ∧ rest = back := by
  have hnone : String.utf8EncodeChar c ++ rest = [] ++ b :: back := h
  rcases cases_of_ascii hb hnone with ⟨-, hhead⟩ | ⟨more, hnil, -⟩
  · exact hhead
  · exact absurd (List.append_eq_nil_iff.1 hnil.symm).1 String.utf8EncodeChar_ne_nil

/-- An ASCII byte is a character wherever it stands among the bytes of a text. -/
theorem exists_of_ascii {s : String} {front back : Bytes} {b : UInt8} (hb : b.toNat < 128)
    (h : encode s = front ++ b :: back) :
    ∃ t c u, s = t ++ String.singleton c ++ u ∧ encode t = front ∧ encode u = back := by
  suffices hchars : ∃ first c last, s.toList = first ++ c :: last ∧
      first.flatMap String.utf8EncodeChar = front ∧ last.flatMap String.utf8EncodeChar = back by
    obtain ⟨first, c, last, hs, hfront, hback⟩ := hchars
    refine ⟨String.ofList first, c, String.ofList last, ?_, ?_, ?_⟩
    · rw [← String.toList_inj, hs]
      simp
    · rw [encode_ofList, hfront]
    · rw [encode_ofList, hback]
  rw [encode_eq_flatMap] at h
  generalize s.toList = chars at h
  induction chars generalizing front with
  | nil => simp at h
  | cons c chars ih =>
    rw [List.flatMap_cons] at h
    obtain ⟨rfl, -, hrest⟩ | ⟨more, rfl, hrest⟩ := cases_of_ascii hb h
    · exact ⟨[], c, chars, rfl, rfl, hrest⟩
    · obtain ⟨first, d, last, rfl, rfl, hlast⟩ := ih hrest
      exact ⟨c :: first, d, last, rfl, List.flatMap_cons, hlast⟩

/-! ## Zero bytes -/

/-- Only NUL is written with a zero byte. -/
theorem zero_mem_utf8EncodeChar_iff (c : Char) : 0 ∈ String.utf8EncodeChar c ↔ c = '\x00' := by
  rw [mem_utf8EncodeChar_iff (by decide), ← Char.toNat_inj]
  rfl

theorem zero_mem_encode_iff (s : String) : 0 ∈ encode s ↔ '\x00' ∈ s.toList := by
  rw [encode_eq_flatMap, List.mem_flatMap]
  constructor
  · rintro ⟨c, hc, hzero⟩
    rw [zero_mem_utf8EncodeChar_iff] at hzero
    exact hzero ▸ hc
  · intro h
    exact ⟨'\x00', h, (zero_mem_utf8EncodeChar_iff _).2 rfl⟩

/-! ## Order -/

theorem cons_lt_cons_of_lt {m n : Nat} (h : m < n) (hn : n < 256) (xs ys : Bytes) :
    UInt8.ofNat m :: xs < UInt8.ofNat n :: ys := by
  rw [List.cons_lt_cons_iff]
  left
  rw [UInt8.lt_iff_toNat_lt, UInt8.toNat_ofNat', UInt8.toNat_ofNat', Nat.mod_eq_of_lt hn,
    Nat.mod_eq_of_lt (Nat.lt_trans h hn)]
  exact h

/-- The next byte decides only where the first ones agree. -/
theorem cons_lt_cons_of_le {m n : Nat} (h : m ≤ n) (hn : n < 256) {xs ys : Bytes}
    (hrest : m = n → xs < ys) : UInt8.ofNat m :: xs < UInt8.ofNat n :: ys := by
  rcases Nat.lt_or_eq_of_le h with hlt | heq
  · exact cons_lt_cons_of_lt hlt hn xs ys
  · rw [heq, List.cons_lt_cons_iff]
    exact .inr ⟨rfl, hrest heq⟩

/-- The bytes of the smaller character decide, whatever follows. -/
theorem utf8EncodeChar_append_lt {c d : Char} (h : c < d) (xs ys : Bytes) :
    String.utf8EncodeChar c ++ xs < String.utf8EncodeChar d ++ ys := by
  have hlt : c.val.toNat < d.val.toNat := h
  have hmax := toNat_val_lt d
  generalize hm : c.val.toNat = m at hlt
  generalize hn : d.val.toNat = n at hlt hmax
  rw [String.utf8EncodeChar, String.utf8EncodeChar, hm, hn]
  -- Where the lengths differ the first bytes do, and elsewhere the bytes are digits to base 64.
  by_cases hone : n ≤ 0x7f
  · rw [if_pos (by omega), if_pos hone]
    exact cons_lt_cons_of_lt (by omega) (by omega) _ _
  by_cases hone' : m ≤ 0x7f
  · rw [if_pos hone', if_neg hone]
    split
    · exact cons_lt_cons_of_lt (by omega) (by omega) _ _
    · split
      · exact cons_lt_cons_of_lt (by omega) (by omega) _ _
      · exact cons_lt_cons_of_lt (by omega) (by omega) _ _
  rw [if_neg hone', if_neg hone]
  by_cases htwo : n ≤ 0x7ff
  · rw [if_pos (by omega), if_pos htwo]
    refine cons_lt_cons_of_le (by omega) (by omega) fun heq => ?_
    exact cons_lt_cons_of_lt (by omega) (by omega) _ _
  by_cases htwo' : m ≤ 0x7ff
  · rw [if_pos htwo', if_neg htwo]
    split
    · exact cons_lt_cons_of_lt (by omega) (by omega) _ _
    · exact cons_lt_cons_of_lt (by omega) (by omega) _ _
  rw [if_neg htwo', if_neg htwo]
  by_cases hthree : n ≤ 0xffff
  · rw [if_pos (by omega), if_pos hthree]
    refine cons_lt_cons_of_le (by omega) (by omega) fun heq => ?_
    refine cons_lt_cons_of_le (by omega) (by omega) fun heq' => ?_
    exact cons_lt_cons_of_lt (by omega) (by omega) _ _
  by_cases hthree' : m ≤ 0xffff
  · rw [if_pos hthree', if_neg hthree]
    exact cons_lt_cons_of_lt (by omega) (by omega) _ _
  rw [if_neg hthree', if_neg hthree]
  refine cons_lt_cons_of_le (by omega) (by omega) fun heq => ?_
  refine cons_lt_cons_of_le (by omega) (by omega) fun heq' => ?_
  refine cons_lt_cons_of_le (by omega) (by omega) fun heq'' => ?_
  exact cons_lt_cons_of_lt (by omega) (by omega) _ _

/-- Texts are in the order of their bytes. -/
theorem encode_lt_encode {s t : String} (h : s < t) : encode s < encode t := by
  have hlex : s.toList < t.toList := h
  rw [encode_eq_flatMap, encode_eq_flatMap]
  generalize s.toList = xs at hlex ⊢
  generalize t.toList = ys at hlex ⊢
  induction hlex with
  | @nil d ys =>
    obtain ⟨byte, bytes, hbytes⟩ := List.exists_cons_of_ne_nil (@String.utf8EncodeChar_ne_nil d)
    rw [List.flatMap_nil, List.flatMap_cons, hbytes]
    exact List.nil_lt_cons byte _
  | rel hlt =>
    rw [List.flatMap_cons, List.flatMap_cons]
    exact utf8EncodeChar_append_lt hlt _ _
  | cons _ ih =>
    rw [List.flatMap_cons, List.flatMap_cons]
    exact List.append_left_lt ih

end ShowRelay.Utf8
