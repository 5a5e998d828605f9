/-
  ShowRelay.Proofs.Http.Scanning

  Reading a text with escapes by positions. A scan goes over the bytes of the text
  and never looks at its characters, except that the two digits of an escape are
  taken as a part of the text: there is none if it would end beyond the text, or
  within a character (`Utf8.between?`).

  A scan stands after those pieces that it has read, and nowhere else
  (`Http.reaches_iff`). All that is known of it follows: it moves on with each
  turn, it stops at the end of the text or before a malformed escape, and it
  reads what `Http.unescape?` does. An escape begins with a percent sign, which
  is a whole character, so that its digits begin between two characters; where
  they end within one, they are no digits. So the scan stops there for the same
  reason as before any other malformed escape.
-/

import Mathlib.Data.List.Induction
import ShowRelay.Proofs.Http.Pieces

namespace ShowRelay

/-! ## Parts of a text -/

namespace Utf8

/-- The bytes of a text from one position up to another. There are none if one of the positions
    is beyond the text or within a character, or if they are in the wrong order. -/
def between? (s : String) (first last : Nat) : Option Bytes :=
  if (⟨first⟩ : String.Pos.Raw).IsValid s ∧ (⟨last⟩ : String.Pos.Raw).IsValid s ∧ first ≤ last then
    some ((encode s).extract first last)
  else none

/-- A text can be cut where the bytes before are those of a text. -/
theorem isValid_iff {s : String} {n : Nat} :
    (⟨n⟩ : String.Pos.Raw).IsValid s ↔ ∃ t u, s = t ++ u ∧ (encode t).length = n := by
  rw [String.Pos.Raw.isValid_iff_exists_append]
  constructor
  · rintro ⟨t, u, hs, hn⟩
    exact ⟨t, u, hs, by rw [length_encode]; exact (congrArg String.Pos.Raw.byteIdx hn).symm⟩
  · rintro ⟨t, u, hs, rfl⟩
    exact ⟨t, u, hs, by rw [length_encode]; rfl⟩

theorem le_of_isValid {s : String} {n : Nat} (h : (⟨n⟩ : String.Pos.Raw).IsValid s) :
    n ≤ (encode s).length := by
  obtain ⟨t, u, rfl, rfl⟩ := isValid_iff.1 h
  rw [encode_append, List.length_append]
  exact Nat.le_add_right _ _

/-- A text can be cut before an ASCII byte and after it. -/
theorem isValid_of_ascii {s : String} {front back : Bytes} {b : UInt8} (hb : b.toNat < 128)
    (h : encode s = front ++ b :: back) :
    (⟨front.length⟩ : String.Pos.Raw).IsValid s ∧
      (⟨front.length + 1⟩ : String.Pos.Raw).IsValid s := by
  obtain ⟨t, c, u, rfl, rfl, rfl⟩ := exists_of_ascii hb h
  have hlength := congrArg List.length h
  simp only [encode_append, List.length_append, List.length_cons] at hlength
  refine ⟨isValid_iff.2 ⟨t, String.singleton c ++ u, String.append_assoc, rfl⟩,
    isValid_iff.2 ⟨t ++ String.singleton c, u, rfl, ?_⟩⟩
  rw [encode_append, List.length_append]
  omega

/-- Two ASCII bytes after an ASCII byte are a part of the text. -/
theorem between?_of_ascii {s : String} {front back : Bytes} {a b c : UInt8} (ha : a.toNat < 128)
    (hc : c.toNat < 128) (h : encode s = front ++ a :: b :: c :: back) :
    between? s (front.length + 1) (front.length + 3) = some [b, c] := by
  have hlast : encode s = front ++ [a, b] ++ c :: back := by
    rw [h, List.append_assoc]
    rfl
  have hstart := (isValid_of_ascii ha h).2
  have hstop := (isValid_of_ascii hc hlast).2
  rw [List.length_append] at hstop
  have hbounds : front.length + 1 ≤ front.length + 3 := by omega
  rw [between?, if_pos ⟨hstart, hstop, hbounds⟩, h]
  simp [List.extract]

/-- The bytes that a part can have. -/
theorem take_of_between? {s : String} {front rest : Bytes} {a : UInt8} {part : Bytes}
    (h : encode s = front ++ a :: rest)
    (hpart : between? s (front.length + 1) (front.length + 3) = some part) :
    rest.take 2 = part := by
  rw [between?] at hpart
  split at hpart
  · rw [← Option.some.inj hpart, h]
    simp [List.extract]
  · cases hpart

end Utf8

namespace Http

/-! ## Scans -/

/-- How far a scan has come. -/
structure Cursor where
  -- The position of the next byte.
  position : Nat
  -- What was read so far.
  bytes : Bytes

/-- What a turn of a scan leads to. -/
inductive Turn where
  -- The text has ended.
  | ended
  -- An escape is malformed.
  | refused
  | onward (next : Cursor)

namespace Cursor

/-- The part of the text in which an escape has its digits, if the escape is next. -/
def digits? (s : String) (c : Cursor) : Option Bytes :=
  Utf8.between? s (c.position + 1) (c.position + 3)

/-- A turn of a scan: a byte is read, or an escape. -/
def turn (s : String) (c : Cursor) : Turn :=
  match (Utf8.encode s)[c.position]? with
  | none => .ended
  | some byte =>
    if byte = percent then
      match c.digits? s with
      | some [high, low] =>
        if IsHexDigit high ∧ IsHexDigit low then
          .onward ⟨c.position + 3, c.bytes ++ [writtenByte high low]⟩
        else .refused
      | _ => .refused
    else .onward ⟨c.position + 1, c.bytes ++ [byte]⟩

/-- Where a scan stands when it has read some pieces. -/
def after (front : List Piece) : Cursor :=
  ⟨(front.flatMap Piece.written).length, front.map Piece.byte⟩

end Cursor

/-- A scan comes to a position with so many turns. -/
inductive Reaches (s : String) : Nat → Cursor → Prop where
  | start : Reaches s 0 ⟨0, []⟩
  | turn {turns : Nat} {c next : Cursor} (h : Reaches s turns c)
      (hturn : c.turn s = .onward next) : Reaches s (turns + 1) next

/-! ## Turns -/

section

variable {s : String} {front : List Piece} {rest : Bytes}
  (h : Utf8.encode s = front.flatMap Piece.written ++ rest)
include h

theorem getElem?_after : (Utf8.encode s)[(Cursor.after front).position]? = rest.head? := by
  rw [h, Cursor.after, List.getElem?_append_right (Nat.le_refl _), Nat.sub_self,
    List.head?_eq_getElem?]

theorem turn_of_nil (hrest : rest = []) : (Cursor.after front).turn s = .ended := by
  simp only [Cursor.turn, getElem?_after h, hrest, List.head?_nil]

theorem turn_of_piece {piece : Piece} {more : Bytes} (hrest : rest = piece.written ++ more) :
    (Cursor.after front).turn s = .onward (Cursor.after (front ++ [piece])) := by
  subst hrest
  have hbyte := getElem?_after h
  cases piece with
  | plain b hb =>
    simp only [Piece.written, List.cons_append, List.head?_cons] at hbyte
    simp only [Cursor.turn, hbyte, if_neg hb]
    simp [Cursor.after, Piece.written, Piece.byte]
  | escape high low hhigh hlow =>
    have hdigits : (Cursor.after front).digits? s = some [high, low] :=
      Utf8.between?_of_ascii (by decide) hlow.ascii h
    simp only [Piece.written, List.cons_append, List.head?_cons] at hbyte
    simp only [Cursor.turn, hbyte, if_true, hdigits, hhigh, hlow, and_self]
    simp [Cursor.after, Piece.written, Piece.byte]

theorem turn_of_malformed (hrest : Malformed rest) : (Cursor.after front).turn s = .refused := by
  obtain ⟨rest, rfl, hno⟩ := hrest
  have hbyte := getElem?_after h
  rw [List.head?_cons] at hbyte
  simp only [Cursor.turn, hbyte, if_true]
  split
  · next high low hdigits =>
    -- The part that was taken is what follows the percent sign.
    have htake := Utf8.take_of_between? h hdigits
    have hsplit : rest = high :: low :: rest.drop 2 := by
      rw [← List.take_append_drop 2 rest, htake]
      rfl
    rw [if_neg (hno high low _ hsplit)]
  · rfl

/-- What a turn does depends on what is left. -/
theorem turn_cases :
    (rest = [] ∧ (Cursor.after front).turn s = .ended) ∨
    (Malformed rest ∧ (Cursor.after front).turn s = .refused) ∨
    ∃ piece more, rest = piece.written ++ more ∧
      (Cursor.after front).turn s = .onward (Cursor.after (front ++ [piece])) := by
  obtain ⟨pieces, last, hlast, hend⟩ := exists_cut rest
  cases pieces with
  | nil =>
    rw [List.flatMap_nil, List.nil_append] at hlast
    subst hlast
    rcases hend with hnil | hmalformed
    · exact .inl ⟨hnil, turn_of_nil h hnil⟩
    · exact .inr (.inl ⟨hmalformed, turn_of_malformed h hmalformed⟩)
  | cons piece pieces =>
    rw [List.flatMap_cons, List.append_assoc] at hlast
    exact .inr (.inr ⟨piece, _, hlast, turn_of_piece h hlast⟩)

end

/-! ## Where a scan stands -/

theorem length_le_written (front : List Piece) :
    front.length ≤ (front.flatMap Piece.written).length := by
  induction front with
  | nil => exact Nat.le_refl 0
  | cons piece front ih =>
    have hpiece : 1 ≤ piece.written.length := by cases piece <;> simp [Piece.written]
    rw [List.flatMap_cons, List.length_append, List.length_cons]
    omega

/-- A scan takes one turn for each piece, and stands only where pieces end. -/
theorem reaches_iff {s : String} {turns : Nat} {c : Cursor} :
    Reaches s turns c ↔ ∃ (front : List Piece) (rest : Bytes),
      Utf8.encode s = front.flatMap Piece.written ++ rest ∧ c = .after front ∧
        turns = front.length := by
  constructor
  · intro h
    induction h with
    | start => exact ⟨[], _, rfl, rfl, rfl⟩
    | turn _ hturn ih =>
      obtain ⟨front, rest, hcut, rfl, rfl⟩ := ih
      rcases turn_cases hcut with ⟨-, hend⟩ | ⟨-, hend⟩ | ⟨piece, more, rfl, honward⟩
      · rw [hend] at hturn
        cases hturn
      · rw [hend] at hturn
        cases hturn
      · rw [honward] at hturn
        cases hturn
        refine ⟨front ++ [piece], more, ?_, rfl, ?_⟩
        · rw [hcut, List.flatMap_append, List.flatMap_singleton, List.append_assoc]
        · rw [List.length_append, List.length_singleton]
  · -- The last piece is the last turn.
    rintro ⟨front, rest, hcut, rfl, rfl⟩
    induction front using List.reverseRecOn generalizing rest with
    | nil => exact .start
    | append_singleton front piece ih =>
      rw [List.flatMap_append, List.flatMap_singleton, List.append_assoc] at hcut
      rw [List.length_append]
      exact .turn (ih _ hcut) (turn_of_piece hcut rfl)

/-- What a scan keeps to at a position. -/
structure Cursor.InBounds (s : String) (c : Cursor) : Prop where
  within : c.position ≤ (Utf8.encode s).length
  -- An escape begins between two characters, and so do its digits.
  start : (Utf8.encode s)[c.position]? = some percent →
    (⟨c.position⟩ : String.Pos.Raw).IsValid s ∧ (⟨c.position + 1⟩ : String.Pos.Raw).IsValid s
  -- Digits that are taken end between two characters, and within the text.
  taken : (Utf8.encode s)[c.position]? = some percent → ∀ digits, c.digits? s = some digits →
    (⟨c.position + 3⟩ : String.Pos.Raw).IsValid s ∧ c.position + 3 ≤ (Utf8.encode s).length ∧
      digits = (Utf8.encode s).extract (c.position + 1) (c.position + 3)
  -- None are taken only if they would end elsewhere, and then the scan stops.
  missing : (Utf8.encode s)[c.position]? = some percent → c.digits? s = none →
    ¬(⟨c.position + 3⟩ : String.Pos.Raw).IsValid s ∧ c.turn s = .refused

theorem inBounds_of_reaches {s : String} {turns : Nat} {c : Cursor} (h : Reaches s turns c) :
    c.InBounds s := by
  obtain ⟨front, rest, hcut, rfl, rfl⟩ := reaches_iff.1 h
  have hwithin : (Cursor.after front).position ≤ (Utf8.encode s).length := by
    rw [hcut, List.length_append]
    exact Nat.le_add_right _ _
  have hstart : (Utf8.encode s)[(Cursor.after front).position]? = some percent →
      (⟨(Cursor.after front).position⟩ : String.Pos.Raw).IsValid s ∧
        (⟨(Cursor.after front).position + 1⟩ : String.Pos.Raw).IsValid s := by
    intro hpercent
    rw [getElem?_after hcut, List.head?_eq_some_iff] at hpercent
    obtain ⟨more, rfl⟩ := hpercent
    exact Utf8.isValid_of_ascii (by decide) hcut
  refine ⟨hwithin, hstart, ?_, ?_⟩
  · intro hpercent digits hdigits
    rw [Cursor.digits?, Utf8.between?] at hdigits
    split at hdigits
    · next hvalid =>
      exact ⟨hvalid.2.1, Utf8.le_of_isValid hvalid.2.1, (Option.some.inj hdigits).symm⟩
    · cases hdigits
  · intro hpercent hnone
    refine ⟨fun hstop => ?_, by simp only [Cursor.turn, hpercent, hnone, if_true]⟩
    have hbounds : (Cursor.after front).position + 1 ≤ (Cursor.after front).position + 3 := by
      omega
    rw [Cursor.digits?, Utf8.between?, if_pos ⟨(hstart hpercent).2, hstop, hbounds⟩] at hnone
    cases hnone

/-- Every turn reads a byte at least. -/
theorem le_of_reaches {s : String} {turns : Nat} {c : Cursor} (h : Reaches s turns c) :
    turns ≤ (Utf8.encode s).length := by
  obtain ⟨front, rest, hcut, rfl, rfl⟩ := reaches_iff.1 h
  rw [hcut, List.length_append]
  exact Nat.le_add_right_of_le (length_le_written front)

/-- Every text is scanned until it ends or an escape is malformed. -/
theorem exists_end (s : String) :
    ∃ turns c, Reaches s turns c ∧ (c.turn s = .ended ∨ c.turn s = .refused) := by
  obtain ⟨front, rest, hcut, hrest⟩ := exists_cut (Utf8.encode s)
  refine ⟨front.length, .after front, reaches_iff.2 ⟨front, rest, hcut, rfl, rfl⟩, ?_⟩
  rcases hrest with hnil | hmalformed
  · exact .inl (turn_of_nil hcut hnil)
  · exact .inr (turn_of_malformed hcut hmalformed)

/-- Where a scan ends decides what the text is read as. -/
theorem unescape?_of_reaches {s : String} {turns : Nat} {c : Cursor} (h : Reaches s turns c) :
    (c.turn s = .ended → unescape? s.toList = Utf8.decode? c.bytes) ∧
      (c.turn s = .refused → unescape? s.toList = none) := by
  obtain ⟨front, rest, hcut, rfl, rfl⟩ := reaches_iff.1 h
  rcases turn_cases hcut with ⟨rfl, hend⟩ | ⟨hmalformed, hend⟩ | ⟨piece, more, -, hend⟩
  · rw [List.append_nil] at hcut
    exact ⟨fun _ => unescape?_of_pieces hcut.symm, by rw [hend]; nofun⟩
  · exact ⟨by rw [hend]; nofun, fun _ => unescape?_of_malformed hcut hmalformed⟩
  · exact ⟨by rw [hend]; nofun, by rw [hend]; nofun⟩

/-! ## The result -/

/-- A text is read exactly if its bytes can be cut into single bytes other than the percent sign
    and escapes of three, as the text that these stand for. Otherwise an escape is cut short, or
    has a character that is no digit, or runs into a character of several bytes, or the bytes that
    are read are no text. A scan by positions ends on every text, after no more turns than there
    are bytes and with the same result, and no part that it takes is beyond the text or begins or
    ends within a character. -/
theorem exact_reading (s : String) :
    (∀ t, unescape? s.toList = some t ↔
      ∃ pieces : List Piece, pieces.flatMap Piece.written = Utf8.encode s ∧
        pieces.map Piece.byte = Utf8.encode t) ∧
    (unescape? s.toList = none ↔ Unreadable (Utf8.encode s)) ∧
    (∃ turns c, Reaches s turns c ∧ (c.turn s = .ended ∨ c.turn s = .refused)) ∧
    ∀ turns c, Reaches s turns c →
      turns ≤ (Utf8.encode s).length ∧ c.InBounds s ∧
      (c.turn s = .ended → unescape? s.toList = Utf8.decode? c.bytes) ∧
      (c.turn s = .refused → unescape? s.toList = none) := by
  refine ⟨fun t => unescape?_eq_some_iff, unescape?_eq_none_iff, exists_end s, ?_⟩
  intro turns c h
  exact ⟨le_of_reaches h, inBounds_of_reaches h, unescape?_of_reaches h⟩

example : unescape? "%C3%a9%20é".toList = some "é é" := by decide

example : unescape? "%4é".toList = none := by decide

end Http

end ShowRelay
