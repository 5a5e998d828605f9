/-
  ShowRelay.Proofs.Json.Values

  What is written as a value of a document is read again, whatever follows it:
  strings with all their escapes (`readString_writeString`), strings that may be
  missing, lists of strings, and natural numbers of 64 bits. A number alone does
  not say where it ends, so it has to be followed by something that does not go
  on with it (`EndsNumber`), such as the comma or the bracket after a value.
-/

import ShowRelay.Json.Reader
import ShowRelay.Json.Writer
import ShowRelay.Proofs.Text

namespace ShowRelay.Json

/-- Letters and digits are no blanks. -/
theorem skipBlanks_of_isAlphanum {c : Char} (hc : c.isAlphanum = true) (s : List Char) :
    skipBlanks (c :: s) = c :: s := by
  rw [skipBlanks, List.dropWhile_cons_of_neg]
  intro hblank
  have hcases : c = ' ' ∨ c = '\n' ∨ c = '\t' ∨ c = '\r' := by simpa [or_assoc] using hblank
  rcases hcases with rfl | rfl | rfl | rfl <;> cases hc

/-! ## Strings -/

theorem readChars_quote (s : List Char) : readChars ('"' :: s) = .ok ([], s) := by
  rw [readChars]

/-- A character stands for itself, unless it is escaped, and then its escape is read as it. -/
theorem writeChar_cases (c : Char) :
    (writeChar c = [c] ∧ c ≠ '"' ∧ c ≠ '\\' ∧ 0x20 ≤ c.toNat) ∨
      ∃ escape, writeChar c = '\\' :: escape ∧ ∀ s, readEscape (escape ++ s) = .ok (c, s) := by
  have hletter : ∀ letter d : Char, letter ≠ 'u' → escaped? letter = some d →
      ∃ escape, ['\\', letter] = '\\' :: escape ∧ ∀ s, readEscape (escape ++ s) = .ok (d, s) := by
    intro letter d hu hd
    refine ⟨[letter], rfl, fun s => ?_⟩
    simp [readEscape, hu, hd]
  unfold writeChar
  split
  · next h => exact .inr (h ▸ hletter '"' '"' (by decide) rfl)
  split
  · next h => exact .inr (h ▸ hletter '\\' '\\' (by decide) rfl)
  split
  · next h => exact .inr (h ▸ hletter 'b' '\x08' (by decide) rfl)
  split
  · next h => exact .inr (h ▸ hletter 'f' '\x0c' (by decide) rfl)
  split
  · next h => exact .inr (h ▸ hletter 'n' '\n' (by decide) rfl)
  split
  · next h => exact .inr (h ▸ hletter 'r' '\r' (by decide) rfl)
  split
  · next h => exact .inr (h ▸ hletter 't' '\t' (by decide) rfl)
  split
  · next hcontrol =>
    refine .inr ⟨_, rfl, fun s => ?_⟩
    have hhigh := Text.digitValue?_digitChar (by decide)
      (by omega : c.toNat / 16 < 16)
    have hlow := Text.digitValue?_digitChar (by decide)
      (by omega : c.toNat % 16 < 16)
    have hzero : Text.digitValue? 16 '0' = some 0 := rfl
    have hnumber : c.toNat / 16 * 16 + c.toNat % 16 = c.toNat := by omega
    have hnotLow : isLowHalf c.toNat = false := by simp [isLowHalf]; omega
    have hnotHigh : isHighHalf c.toNat = false := by simp [isHighHalf]; omega
    simp [readEscape, readNumbered, readFourHex, hzero, hhigh, hlow, hnumber, hnotLow, hnotHigh,
      bind, Except.bind, pure, Except.pure]
  · next hquote hbackslash _ _ _ _ _ hplain =>
    exact .inl ⟨rfl, hquote, hbackslash, by omega⟩

theorem readChars_plain {c : Char} {s cs rest : List Char} (hquote : c ≠ '"')
    (hbackslash : c ≠ '\\') (hplain : 0x20 ≤ c.toNat) (h : readChars s = .ok (cs, rest)) :
    readChars (c :: s) = .ok (c :: cs, rest) := by
  rw [readChars, if_neg (Nat.not_lt.2 hplain), h]
  · rfl
  · exact hquote
  · exact hbackslash

theorem readChars_escape {c : Char} {s s' cs rest : List Char} (he : readEscape s = .ok (c, s'))
    (h : readChars s' = .ok (cs, rest)) : readChars ('\\' :: s) = .ok (c :: cs, rest) := by
  rw [readChars]
  split
  · next e herror =>
    rw [he] at herror
    cases herror
  · next hchar =>
    rw [he] at hchar
    cases hchar
    rw [h]
    rfl

/-- A character that is written is read before what follows it. -/
theorem readChars_writeChar {s cs rest : List Char} (h : readChars s = .ok (cs, rest)) (c : Char) :
    readChars (writeChar c ++ s) = .ok (c :: cs, rest) := by
  rcases writeChar_cases c with ⟨hc, hquote, hbackslash, hplain⟩ | ⟨escape, hc, hescape⟩
  · rw [hc]
    exact readChars_plain hquote hbackslash hplain h
  · rw [hc]
    exact readChars_escape (hescape s) h

theorem readChars_flatMap_writeChar (cs s : List Char) :
    readChars (cs.flatMap writeChar ++ '"' :: s) = .ok (cs, s) := by
  induction cs with
  | nil => exact readChars_quote s
  | cons c cs ih =>
    rw [List.flatMap_cons, List.append_assoc]
    exact readChars_writeChar ih c

theorem writeString_append (text : String) (s : List Char) :
    writeString text ++ s = '"' :: (text.toList.flatMap writeChar ++ '"' :: s) := by
  simp [writeString]

/-- A string is read as it is written. -/
theorem readString_writeString (expected text : String) (s : List Char) :
    readString expected (writeString text ++ s) = .ok (text, s) := by
  have hblanks : ∀ t, skipBlanks ('"' :: t) = '"' :: t := fun _ => rfl
  simp only [readString, writeString_append, hblanks, readChars_flatMap_writeChar, bind,
    Except.bind, pure, Except.pure, String.ofList_toList]

theorem readOptional_writeOptional (expected : String) (text : Option String) (s : List Char) :
    readOptional expected (writeOptional text ++ s) = .ok (text, s) := by
  cases text with
  | none => rfl
  | some text =>
    have hblanks : ∀ t, skipBlanks ('"' :: t) = '"' :: t := fun _ => rfl
    have hstring := readString_writeString expected text s
    rw [writeString_append] at hstring
    simp only [readOptional, writeOptional, writeString_append, hblanks]
    split
    · next heq => cases heq
    · rw [hstring]
      rfl

/-! ## Numbers -/

/-- The digits of a document are those of base ten. -/
theorem digit?_eq (c : Char) : Number.digit? c = Text.digitValue? 10 c := by
  have hisDigit : c.isDigit = decide ('0'.toNat ≤ c.toNat ∧ c.toNat ≤ '9'.toNat) := by
    rw [Bool.eq_iff_iff, decide_eq_true_iff]
    exact Char.isDigit_iff_toNat
  simp only [Number.digit?, Text.digitValue?, hisDigit, decide_eq_true_iff]
  by_cases hdigit : '0'.toNat ≤ c.toNat ∧ c.toNat ≤ '9'.toNat
  · have hlt : c.toNat - '0'.toNat < 10 := by
      have hbounds : '0'.toNat = 48 ∧ '9'.toNat = 57 := by decide
      omega
    rw [if_pos hdigit, if_pos hdigit, Option.filter_some, if_pos (decide_eq_true hlt)]
  · -- Letters are worth ten at least.
    rw [if_neg hdigit, if_neg hdigit, eq_comm, Option.filter_eq_none_iff]
    intro value hvalue
    have hten : 10 ≤ value := by grind
    simpa using hten

theorem isDigit_eq (c : Char) : c.isDigit = Text.isDigitOf 10 c := by
  rw [Text.isDigitOf, ← digit?_eq, Number.digit?]
  cases c.isDigit <;> rfl

/-- Digits are taken as long as their number does not exceed the bound. -/
theorem Number.take_eq {bound value : Nat} {digits : List Char}
    (h : Text.appendDigits 10 value digits ≤ bound) :
    take bound value digits = (Text.appendDigits 10 value digits, digits.length, []) := by
  induction digits generalizing value with
  | nil => rfl
  | cons c digits ih =>
    have hstep : Text.appendDigits 10 value (c :: digits) =
        Text.appendDigits 10 (value * 10 + (digit? c).getD 0) digits := by
      rw [digit?_eq]
      rfl
    have hnext : value * 10 + (digit? c).getD 0 ≤ bound := by
      have hle := Text.le_appendDigits (by decide : 0 < 10)
        (value * 10 + (digit? c).getD 0) digits
      rw [hstep] at h
      omega
    rw [hstep] at h ⊢
    simp only [take, if_neg (Nat.not_lt.2 hnext), ih h, List.length_cons]

/-- What comes next does not go on with a number. -/
def EndsNumber (s : List Char) : Prop :=
  ∀ c ∈ s.head?, c.isDigit = false ∧ c ≠ '.' ∧ c ≠ 'e' ∧ c ≠ 'E'

/-- A number ends before what stands about values. -/
theorem endsNumber_cons {c : Char} (hc : c ∈ ['"', ',', ']', '\x7d']) (s : List Char) :
    EndsNumber (c :: s) := by
  intro d hd
  obtain rfl := Option.some.inj hd
  simp only [List.mem_cons, List.not_mem_nil, or_false] at hc
  rcases hc with rfl | rfl | rfl | rfl <;> decide

theorem Number.readTail_of_endsNumber {s : List Char} (h : EndsNumber s) (n : Nat) :
    readTail true n 0 s = .ok (.natural n, s) := by
  cases s with
  | nil => rfl
  | cons c s =>
    obtain ⟨-, hdot, he, hE⟩ := h c rfl
    unfold readTail
    split
    · next heq => exact absurd (List.cons.inj heq).1 hdot
    · next heq => exact absurd (List.cons.inj heq).1 he
    · next heq => exact absurd (List.cons.inj heq).1 hE
    · rfl

/-- A number begins with a digit, which is a zero only if the number is. -/
theorem exists_toDigits_cons (n : Nat) :
    ∃ c digits, Nat.toDigits 10 n = c :: digits ∧ c.isDigit = true ∧ (c = '0' → n = 0) := by
  obtain ⟨c, digits, hcons⟩ := List.exists_cons_of_ne_nil
    (Nat.toDigits_ne_nil (b := 10) (n := n))
  have hc : c ∈ Nat.toDigits 10 n := hcons ▸ List.mem_cons_self
  refine ⟨c, digits, hcons, ?_, ?_⟩
  · rw [isDigit_eq]
    exact Text.isDigitOf_of_mem_toDigits (by decide) (by decide) hc
  · rintro rfl
    apply Text.eq_zero_of_head?_toDigits (by decide : 1 < 10) (by decide)
    rw [hcons, List.head?_cons]

theorem Number.read_toDigits {s : List Char} (hs : EndsNumber s) {n : Nat} (hn : n ≤ maxNatural) :
    read true (Nat.toDigits 10 n ++ s) = .ok (.natural n, s) := by
  have hdigit : Char.isDigit = Text.isDigitOf 10 := funext isDigit_eq
  have hend : Text.NoDigit 10 s := fun c hc => isDigit_eq c ▸ (hs c hc).1
  have hall : ∀ c ∈ Nat.toDigits 10 n, Text.isDigitOf 10 c = true :=
    fun c hc => Text.isDigitOf_of_mem_toDigits (by decide) (by decide) hc
  have hvalue : Text.appendDigits 10 0 (Nat.toDigits 10 n) = n :=
    Text.digitsValue_toDigits (by decide) (by decide) n
  have htake := Number.take_eq (hvalue.symm ▸ hn : Text.appendDigits 10 0 _ ≤ maxNatural)
  have hleft := Text.takeWhile_isDigitOf hall hend
  have hrest := Text.dropWhile_isDigitOf hall hend
  have htail := readTail_of_endsNumber hs n
  obtain ⟨c, digits, hcons, hc, hzero⟩ := exists_toDigits_cons n
  rw [hvalue, hcons] at htake
  by_cases hcz : c = '0'
  · obtain rfl := hzero hcz
    have hnone : s.head?.any Char.isDigit = false := by
      cases s with
      | nil => rfl
      | cons d s => exact (hs d rfl).1
    change read true ('0' :: s) = _
    rw [read, hnone]
    exact htail
  · rw [hcons, List.cons_append] at hleft hrest ⊢
    rw [read, hc, hdigit, hleft, hrest, htake]
    · exact htail
    · exact hcz

/-- A number below the limit is read as it is written. -/
theorem readNatural_writeNatural (expected : String) {limit n : Nat} (hn : n < limit)
    (hlimit : limit ≤ UInt64.size) {s : List Char} (hs : EndsNumber s) :
    readNatural expected limit (writeNatural n ++ s) = .ok (n, s) := by
  have hmax : n ≤ maxNatural := by
    rw [maxNatural]
    omega
  have hread := Number.read_toDigits hs hmax
  obtain ⟨c, digits, hcons, hc, -⟩ := exists_toDigits_cons n
  have halphanum : c.isAlphanum = true := by simp [Char.isAlphanum, hc]
  have hblanks := skipBlanks_of_isAlphanum halphanum (digits ++ s)
  rw [hcons, List.cons_append] at hread
  rw [writeNatural, hcons, List.cons_append, readNatural, hblanks]
  split
  · next heq => cases heq
  · next heq =>
    obtain rfl := (List.cons.inj heq).1
    cases hc
  · next heq =>
    cases heq
    simp only [hc, if_true, hread, bind, Except.bind, naturalOf, if_pos hn, pure, Except.pure]

/-! ## Items with commas between them -/

/-- What stands before an item. -/
def lead (first : Bool) : List Char := if first then [] else [',']

/-- The items that are still to come, the `first` one among them or not. -/
def writeFrom (first : Bool) : List (List Char) → List Char
  | [] => []
  | item :: items => lead first ++ item ++ writeFrom false items

theorem writeItems_eq_writeFrom (items : List (List Char)) :
    writeItems items = writeFrom true items := by
  have hfurther : ∀ items : List (List Char),
      writeFrom false items = items.flatMap fun item => ',' :: item := by
    intro items
    induction items with
    | nil => rfl
    | cons item items ih => rw [writeFrom, ih, List.flatMap_cons]; rfl
  cases items with
  | nil => rfl
  | cons item items =>
    rw [writeItems, Text.intercalate_cons, writeFrom, hfurther]
    rfl

theorem writeFrom_append (first : Bool) (items later : List (List Char)) :
    writeFrom first (items ++ later) =
      writeFrom first items ++ writeFrom (first && items.isEmpty) later := by
  induction items generalizing first with
  | nil => simp [writeFrom]
  | cons item items ih => simp [writeFrom, ih]

/-- After an item comes a comma or what is after all of them. -/
theorem endsNumber_writeFrom {s : List Char} (hs : EndsNumber s) (items : List (List Char)) :
    EndsNumber (writeFrom false items ++ s) := by
  cases items with
  | nil => exact hs
  | cons item items => exact endsNumber_cons (by decide) _

/-- A value begins at once, and not with the bracket that ends a list. -/
def BeginsValue (s : List Char) : Prop :=
  ∃ c t, s = c :: t ∧ (∀ t, skipBlanks (c :: t) = c :: t) ∧ c ≠ ']'

theorem nextElement_lead {value : List Char} (hvalue : BeginsValue value) (first : Bool)
    (s : List Char) :
    nextElement first (lead first ++ value ++ s) = .ok (some (value ++ s)) := by
  obtain ⟨c, t, rfl, hblanks, hbracket⟩ := hvalue
  cases first with
  | true => simp [nextElement, lead, hblanks]
  | false =>
    have hcomma : ∀ t, skipBlanks (',' :: t) = ',' :: t := fun _ => rfl
    simp [nextElement, lead, hblanks, hbracket, hcomma]

theorem nextElement_bracket (first : Bool) (s : List Char) :
    nextElement first (']' :: s) = .ok none := by
  cases first <;> rfl

theorem beginsValue_writeString (text : String) : BeginsValue (writeString text) :=
  ⟨'"', _, rfl, fun _ => rfl, by decide⟩

theorem beginsValue_writeOptional (text : Option String) : BeginsValue (writeOptional text) := by
  cases text with
  | none => exact ⟨'n', _, rfl, fun _ => rfl, by decide⟩
  | some text => exact beginsValue_writeString text

theorem beginsValue_writeNatural (n : Nat) : BeginsValue (writeNatural n) := by
  obtain ⟨c, digits, hcons, hc, -⟩ := exists_toDigits_cons n
  refine ⟨c, digits, hcons, skipBlanks_of_isAlphanum (by simp [Char.isAlphanum, hc]), ?_⟩
  rintro rfl
  cases hc

theorem beginsValue_writeList (items : List (List Char)) : BeginsValue (writeList items) :=
  ⟨'[', _, rfl, fun _ => rfl, by decide⟩

theorem readStrings_of_error {first : Bool} {e : Fault} (h : nextElement first s = .error e) :
    readStrings first s = .error e := by
  rw [readStrings]
  split
  · next heq => rw [h] at heq; cases heq; rfl
  · next heq => rw [h] at heq; cases heq
  · next heq => rw [h] at heq; cases heq

theorem readStrings_of_end {first : Bool} {s : List Char} (h : nextElement first s = .ok none) :
    readStrings first s = .ok ([], s) := by
  rw [readStrings]
  split
  · next heq => rw [h] at heq; cases heq
  · rfl
  · next heq => rw [h] at heq; cases heq

theorem readStrings_of_next {first : Bool} {s t rest rest' : List Char} {text : String}
    {texts : List String} (hnext : nextElement first s = .ok (some t))
    (htext : readString "a string" t = .ok (text, rest))
    (hrest : readStrings false rest = .ok (texts, rest')) :
    readStrings first s = .ok (text :: texts, rest') := by
  rw [readStrings]
  split
  · next heq => rw [hnext] at heq; cases heq
  · next heq => rw [hnext] at heq; cases heq
  · next heq =>
    rw [hnext] at heq
    cases heq
    split
    · next herror => rw [htext] at herror; cases herror
    · next hok =>
      rw [htext] at hok
      cases hok
      rw [hrest]
      rfl

theorem readStrings_writeFrom (texts : List String) (first : Bool) (s : List Char) :
    readStrings first (writeFrom first (texts.map writeString) ++ ']' :: s) =
      .ok (texts, ']' :: s) := by
  induction texts generalizing first with
  | nil => exact readStrings_of_end (nextElement_bracket first s)
  | cons text texts ih =>
    rw [List.map_cons, writeFrom, List.append_assoc]
    exact readStrings_of_next (nextElement_lead (beginsValue_writeString text) first _)
      (readString_writeString _ _ _) (ih false)

/-- A list of strings is read as it is written. -/
theorem readStringList_writeList (texts : List String) (s : List Char) :
    readStringList (writeList (texts.map writeString) ++ s) = .ok (texts, s) := by
  have hblanks : ∀ t, skipBlanks ('[' :: t) = '[' :: t := fun _ => rfl
  have hstrings := readStrings_writeFrom texts true s
  simp only [writeList, writeItems_eq_writeFrom, List.cons_append, List.append_assoc,
    List.nil_append, readStringList, hblanks, hstrings, bind, Except.bind]
  rfl

end ShowRelay.Json
