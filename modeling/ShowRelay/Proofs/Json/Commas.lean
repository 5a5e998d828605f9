/-
  ShowRelay.Proofs.Json.Commas

  How far the readers of values get, whatever stands in the document. A comma
  that is followed by a quote, as it stands between two members, is passed by no
  number and no word. A string that is still open there takes in the comma and
  is closed by the quote, so that reading goes on within the name of the member
  (`commaAhead_of_readString`). A list does not survive this, since no item
  begins like a name without quotes (`commaAhead_of_readStringList`).
-/

import Mathlib.Data.List.Infix
import ShowRelay.Proofs.Json.Values

namespace ShowRelay.Json

/-- Reading in two parts gives something if both do. -/
theorem bind_eq_ok_iff {α β : Type} {x : Except Fault α} {f : α → Except Fault β} {b : β} :
    x >>= f = .ok b ↔ ∃ a, x = .ok a ∧ f a = .ok b := by
  cases x with
  | error e => exact ⟨nofun, nofun⟩
  | ok a => exact ⟨fun h => ⟨a, rfl, h⟩, fun ⟨_, ha, h⟩ => Except.ok.inj ha ▸ h⟩

/-- A comma is still to come, after which the document goes on with `mark`. -/
def CommaAhead (mark s : List Char) : Prop := ',' :: mark <:+ s

variable {mark s rest : List Char}

namespace CommaAhead

theorem ne_nil (h : CommaAhead mark s) : s ≠ [] := by
  rintro rfl
  cases List.suffix_nil.1 h

/-- The comma is the next character, or it is ahead of what follows. -/
theorem cases_cons {c : Char} (h : CommaAhead mark (c :: s)) :
    (c = ',' ∧ s = mark) ∨ CommaAhead mark s := by
  rcases List.suffix_cons_iff.1 h with heq | h
  · cases heq
    exact .inl ⟨rfl, rfl⟩
  · exact .inr h

theorem tail {c : Char} (h : CommaAhead mark (c :: s)) (hc : c ≠ ',') : CommaAhead mark s := by
  rcases h.cases_cons with ⟨rfl, -⟩ | h
  · exact absurd rfl hc
  · exact h

theorem dropWhile (h : CommaAhead mark s) {p : Char → Bool} (hp : p ',' = false) :
    CommaAhead mark (s.dropWhile p) := by
  induction s with
  | nil => exact h
  | cons c s ih =>
    rw [List.dropWhile_cons]
    split
    · next hc =>
      refine ih (h.tail ?_)
      rintro rfl
      rw [hp] at hc
      cases hc
    · exact h

theorem skipBlanks (h : CommaAhead mark s) : CommaAhead mark (skipBlanks s) :=
  h.dropWhile (by decide)

end CommaAhead

/-! ## Words and escapes -/

theorem commaAhead_of_readWord {word : List Char} (hword : ',' ∉ word)
    (h : readWord word s = .ok rest) (ahead : CommaAhead mark s) : CommaAhead mark rest := by
  induction word generalizing s with
  | nil =>
    cases h
    exact ahead
  | cons w word ih =>
    cases s with
    | nil => cases h
    | cons c s =>
      rw [readWord] at h
      split at h
      · next hc =>
        obtain ⟨hw, hword⟩ := List.ne_and_not_mem_of_not_mem_cons hword
        exact ih hword h (ahead.tail fun hcomma => hw (hcomma ▸ hc))
      · cases h

theorem commaAhead_of_readFourHex {n : Nat} (h : readFourHex s = .ok (n, rest))
    (ahead : CommaAhead mark s) : CommaAhead mark rest := by
  have hcomma : Text.digitValue? 16 ',' = none := rfl
  have hdigit : ∀ {c : Char} {value : Nat}, Text.digitValue? 16 c = some value → c ≠ ',' := by
    rintro c value hc rfl
    rw [hcomma] at hc
    cases hc
  unfold readFourHex at h
  split at h
  · split at h
    · next ha hb hc hd =>
      cases h
      exact (((ahead.tail (hdigit ha)).tail (hdigit hb)).tail (hdigit hc)).tail (hdigit hd)
    · cases h
  · cases h

theorem commaAhead_of_readLowHalf {high : Nat} {c : Char} (h : readLowHalf high s = .ok (c, rest))
    (ahead : CommaAhead mark s) : CommaAhead mark rest := by
  unfold readLowHalf at h
  split at h
  · cases h
  · cases h
  · obtain ⟨⟨low, s'⟩, hlow, h⟩ := bind_eq_ok_iff.1 h
    have ahead' := commaAhead_of_readFourHex hlow ((ahead.tail (by decide)).tail (by decide))
    dsimp only at h
    split at h
    · obtain ⟨-, rfl⟩ := Prod.mk.inj (Except.ok.inj h)
      exact ahead'
    · cases h
  · cases h

theorem commaAhead_of_readNumbered {c : Char} (h : readNumbered s = .ok (c, rest))
    (ahead : CommaAhead mark s) : CommaAhead mark rest := by
  obtain ⟨⟨n, s'⟩, hn, h⟩ := bind_eq_ok_iff.1 h
  have ahead' := commaAhead_of_readFourHex hn ahead
  dsimp only at h
  split at h
  · cases h
  · split at h
    · exact commaAhead_of_readLowHalf h ahead'
    · cases h
      exact ahead'

theorem commaAhead_of_readEscape {c : Char} (h : readEscape s = .ok (c, rest))
    (ahead : CommaAhead mark s) : CommaAhead mark rest := by
  unfold readEscape at h
  split at h
  · cases h
  · next d s =>
    split at h
    · next hu => exact commaAhead_of_readNumbered h (ahead.tail (by simp [hu]))
    · split at h
      · next hd =>
        cases h
        refine ahead.tail ?_
        rintro rfl
        cases hd
      · cases h

/-! ## Numbers -/

namespace Number

theorem commaAhead_of_readExponent {positive : Bool} {significand : Nat} {power : Int}
    {n : Number} (h : readExponent positive significand power s = .ok (n, rest))
    (ahead : CommaAhead mark s) : CommaAhead mark rest := by
  unfold readExponent at h
  split at h
  next grows t hsign =>
  have ahead' : CommaAhead mark t := by
    split at hsign
    · cases hsign
      exact ahead.tail (by decide)
    · cases hsign
      exact ahead.tail (by decide)
    · cases hsign
      exact ahead
  have hdigits : CommaAhead mark (t.dropWhile Char.isDigit) := ahead'.dropWhile (by decide)
  split at h
  · cases h
  · split at h
    · cases h
    · dsimp only at h
      split at h
      · obtain ⟨value, -, h⟩ := bind_eq_ok_iff.1 h
        cases h
        exact hdigits
      · split at h
        · cases h
        · cases h
          exact hdigits

theorem commaAhead_of_readScaled {positive : Bool} {significand : Nat} {power : Int}
    {n : Number} (h : readScaled positive significand power s = .ok (n, rest))
    (ahead : CommaAhead mark s) : CommaAhead mark rest := by
  unfold readScaled at h
  split at h
  · exact commaAhead_of_readExponent h (ahead.tail (by decide))
  · exact commaAhead_of_readExponent h (ahead.tail (by decide))
  · obtain ⟨value, -, h⟩ := bind_eq_ok_iff.1 h
    cases h
    exact ahead

theorem commaAhead_of_readFraction {positive : Bool} {significand : Nat} {power : Int}
    {n : Number} (h : readFraction positive significand power s = .ok (n, rest))
    (ahead : CommaAhead mark s) : CommaAhead mark rest := by
  simp only [readFraction] at h
  split at h
  · cases h
  · exact commaAhead_of_readScaled h (ahead.dropWhile (by decide))

theorem commaAhead_of_readTail {positive : Bool} {significand leftOver : Nat} {n : Number}
    (h : readTail positive significand leftOver s = .ok (n, rest)) (ahead : CommaAhead mark s) :
    CommaAhead mark rest := by
  unfold readTail at h
  split at h
  · exact commaAhead_of_readFraction h (ahead.tail (by decide))
  · exact commaAhead_of_readScaled h ahead
  · exact commaAhead_of_readScaled h ahead
  · split at h
    · exact commaAhead_of_readScaled h ahead
    · split at h
      · cases h
        exact ahead
      · split at h
        · cases h
          exact ahead
        · cases h
          exact ahead

theorem commaAhead_of_read {positive : Bool} {n : Number} (h : read positive s = .ok (n, rest))
    (ahead : CommaAhead mark s) : CommaAhead mark rest := by
  unfold read at h
  split at h
  · cases h
  · split at h
    · cases h
    · exact commaAhead_of_readTail h (ahead.tail (by decide))
  · split at h
    · cases h
    · exact commaAhead_of_readTail h (ahead.dropWhile (by decide))

end Number

theorem commaAhead_of_readNatural {expected : String} {limit n : Nat}
    (h : readNatural expected limit s = .ok (n, rest)) (ahead : CommaAhead mark s) :
    CommaAhead mark rest := by
  have ahead' := ahead.skipBlanks
  unfold readNatural at h
  split at h
  · cases h
  · next heq =>
    rw [heq] at ahead'
    obtain ⟨⟨number, s'⟩, hread, h⟩ := bind_eq_ok_iff.1 h
    obtain ⟨value, -, h⟩ := bind_eq_ok_iff.1 h
    cases h
    exact Number.commaAhead_of_read hread (ahead'.tail (by decide))
  · next heq =>
    rw [heq] at ahead'
    split at h
    · obtain ⟨⟨number, s'⟩, hread, h⟩ := bind_eq_ok_iff.1 h
      obtain ⟨value, -, h⟩ := bind_eq_ok_iff.1 h
      cases h
      exact Number.commaAhead_of_read hread ahead'
    · cases h

/-! ## Strings -/

/-- The document goes on with a name, after its opening quote. -/
structure BeginsName (s : List Char) : Prop where
  letter : ∃ c t, s = c :: t ∧ c.isAlpha = true
  colon : ∃ name t, readChars s = .ok (name, ':' :: t)

variable {after : List Char}

/-- A string ends before the comma, or with the quote after it. -/
theorem commaAhead_of_readChars {cs : List Char} (h : readChars s = .ok (cs, rest))
    (ahead : CommaAhead ('"' :: after) s) : CommaAhead ('"' :: after) rest ∨ rest = after := by
  fun_induction readChars s generalizing cs with
  | case1 => cases h
  | case2 s =>
    cases h
    exact .inl (ahead.tail (by decide))
  | case3 => cases h
  | case4 s c s' hescape ih =>
    obtain ⟨⟨cs', rest'⟩, hread, h⟩ := bind_eq_ok_iff.1 h
    cases h
    exact ih hread (commaAhead_of_readEscape hescape (ahead.tail (by decide)))
  | case5 => cases h
  | case6 c s _ _ _ ih =>
    obtain ⟨⟨cs', rest'⟩, hread, h⟩ := bind_eq_ok_iff.1 h
    cases h
    rcases ahead.cases_cons with ⟨-, rfl⟩ | ahead
    · rw [readChars] at hread
      cases hread
      exact .inr rfl
    · exact ih hread ahead

theorem commaAhead_of_readString {expected text : String}
    (h : readString expected s = .ok (text, rest)) (ahead : CommaAhead ('"' :: after) s) :
    CommaAhead ('"' :: after) rest ∨ rest = after := by
  have ahead' := ahead.skipBlanks
  unfold readString at h
  split at h
  · cases h
  · next heq =>
    obtain ⟨⟨cs, s'⟩, hread, h⟩ := bind_eq_ok_iff.1 h
    cases h
    rw [heq] at ahead'
    exact commaAhead_of_readChars hread (ahead'.tail (by decide))
  · cases h

theorem commaAhead_of_readOptional {expected : String} {text : Option String}
    (h : readOptional expected s = .ok (text, rest)) (ahead : CommaAhead ('"' :: after) s) :
    CommaAhead ('"' :: after) rest ∨ rest = after := by
  have ahead' := ahead.skipBlanks
  unfold readOptional at h
  split at h
  · next heq =>
    obtain ⟨s', hread, h⟩ := bind_eq_ok_iff.1 h
    cases h
    rw [heq] at ahead'
    exact .inl (commaAhead_of_readWord (by decide) hread (ahead'.tail (by decide)))
  · obtain ⟨⟨text', s'⟩, hread, h⟩ := bind_eq_ok_iff.1 h
    cases h
    exact commaAhead_of_readString hread ahead'

/-! ## Lists of strings -/

/-- A name begins with a letter, so with nothing that could stand after a value. -/
theorem BeginsName.exists_cons (h : BeginsName after) :
    ∃ c t, after = c :: t ∧ skipBlanks (c :: t) = c :: t ∧
      c ≠ ',' ∧ c ≠ ':' ∧ c ≠ ']' ∧ c ≠ '\x7d' := by
  obtain ⟨c, t, hcons, hc⟩ := h.letter
  have halphanum : c.isAlphanum = true := by simp [Char.isAlphanum, hc]
  refine ⟨c, t, hcons, skipBlanks_of_isAlphanum halphanum t, ?_⟩
  refine ⟨?_, ?_, ?_, ?_⟩ <;> (rintro rfl; cases hc)

/-- A list does not go on with a name without its opening quote. -/
theorem nextElement_of_beginsName (h : BeginsName after) :
    nextElement false after = .error .expectedCommaOrBracket := by
  obtain ⟨c, t, rfl, hblanks, hcomma, -, hbracket, -⟩ := h.exists_cons
  simp [nextElement, hblanks, hcomma]

theorem commaAhead_of_nextElement {first : Bool} {t : List Char}
    (h : nextElement first s = .ok (some t)) (ahead : CommaAhead ('"' :: after) s) :
    CommaAhead ('"' :: after) t ∨ t = '"' :: after := by
  have ahead' := ahead.skipBlanks
  unfold nextElement at h
  split at h
  · cases h
  · cases h
  · next c s' _ heq =>
    rw [heq] at ahead'
    split at h
    · cases h
      exact .inl ahead'
    · split at h
      · rcases ahead'.cases_cons with ⟨-, rfl⟩ | ahead'
        · cases h
          exact .inr rfl
        · have ahead' := ahead'.skipBlanks
          split at h
          · cases h
          · cases h
          · cases h
            exact .inl ahead'
      · cases h

/-- No list of strings reaches beyond the comma: the name after it is no item, and none if it is
    taken for the end of one. -/
theorem commaAhead_of_readStrings (hafter : BeginsName after) {first : Bool}
    {texts : List String} (h : readStrings first s = .ok (texts, rest))
    (ahead : CommaAhead ('"' :: after) s) : CommaAhead ('"' :: after) rest := by
  fun_induction readStrings first s generalizing texts with
  | case1 => cases h
  | case2 =>
    cases h
    exact ahead
  | case3 => cases h
  | case4 first s t hnext text s' htext ih =>
    obtain ⟨⟨texts', rest'⟩, hread, h⟩ := bind_eq_ok_iff.1 h
    cases h
    rcases commaAhead_of_nextElement hnext ahead with ahead | rfl
    · rcases commaAhead_of_readString htext ahead with ahead | rfl
      · exact ih hread ahead
      · rw [readStrings_of_error (nextElement_of_beginsName hafter)] at hread
        cases hread
    · obtain ⟨name, t, hname⟩ := hafter.colon
      have hcolon : s' = ':' :: t := by
        have hblanks : skipBlanks ('"' :: after) = '"' :: after := rfl
        simp only [readString, hblanks, hname] at htext
        cases htext
        rfl
      have herror : nextElement false s' = .error .expectedCommaOrBracket := hcolon ▸ rfl
      rw [readStrings_of_error herror] at hread
      cases hread

theorem commaAhead_of_endList (h : endList s = .ok rest) (ahead : CommaAhead mark s) :
    CommaAhead mark rest := by
  have ahead' := ahead.skipBlanks
  unfold endList at h
  split at h
  · cases h
  · next heq =>
    cases h
    rw [heq] at ahead'
    exact ahead'.tail (by decide)
  · split at h <;> cases h
  · cases h

theorem commaAhead_of_readStringList (hafter : BeginsName after) {texts : List String}
    (h : readStringList s = .ok (texts, rest)) (ahead : CommaAhead ('"' :: after) s) :
    CommaAhead ('"' :: after) rest := by
  have ahead' := ahead.skipBlanks
  unfold readStringList at h
  split at h
  · cases h
  · next heq =>
    rw [heq] at ahead'
    obtain ⟨⟨texts', s'⟩, hread, h⟩ := bind_eq_ok_iff.1 h
    obtain ⟨rest', hend, h⟩ := bind_eq_ok_iff.1 h
    cases h
    exact commaAhead_of_endList hend
      (commaAhead_of_readStrings hafter hread (ahead'.tail (by decide)))
  · cases h

end ShowRelay.Json
