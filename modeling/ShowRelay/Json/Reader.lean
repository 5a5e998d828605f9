/-
  ShowRelay.Json.Reader

  Reading the values of a JSON document, each from the front of the characters
  that are left. A reader is told which type is expected; where another value
  stands, that value is read far enough to be named in the fault.
-/

import ShowRelay.Json.Number
import ShowRelay.Text.Numeral
import ShowRelay.Text.Utf8

namespace ShowRelay.Json

/-- What is left of a document after the blanks at its front. -/
def skipBlanks (s : List Char) : List Char :=
  s.dropWhile fun c => c = ' ' || c = '\n' || c = '\t' || c = '\r'

theorem length_skipBlanks_le (s : List Char) : (skipBlanks s).length ≤ s.length :=
  (List.dropWhile_suffix _).length_le

/-- The document after a word of which the first letter has been read. -/
def readWord : (word : List Char) → List Char → Except Fault (List Char)
  | [], s => .ok s
  | _ :: _, [] => .error .endOfValue
  | w :: word, c :: s => if c = w then readWord word s else .error .expectedIdent

/-! ## Strings -/

/-- The number that the four hexadecimal digits of an escape write. Four bytes are
    looked at, whatever they belong to. -/
def readFourHex (s : List Char) : Except Fault (Nat × List Char) :=
  match s with
  | a :: b :: c :: d :: rest =>
    match Text.digitValue? 16 a, Text.digitValue? 16 b, Text.digitValue? 16 c,
      Text.digitValue? 16 d with
    | some a, some b, some c, some d => .ok (((a * 16 + b) * 16 + c) * 16 + d, rest)
    | _, _, _, _ => .error .invalidEscape
  | short =>
    let bytes := Utf8.encode (String.ofList short)
    .error (if 4 ≤ bytes.length then .invalidEscape else .endOfString)

/-- Whether a number is the first half of a pair of escapes. -/
def isHighHalf (n : Nat) : Bool := 0xD800 ≤ n && n ≤ 0xDBFF

/-- Whether a number is the second half of a pair of escapes. -/
def isLowHalf (n : Nat) : Bool := 0xDC00 ≤ n && n ≤ 0xDFFF

/-- The character past the first plane that two halves write together. -/
def pairedChar (high low : Nat) : Char :=
  Char.ofNat (0x10000 + (high - 0xD800) * 0x400 + (low - 0xDC00))

/-- The second escape of a pair whose first half is `high`. -/
def readLowHalf (high : Nat) : List Char → Except Fault (Char × List Char)
  | [] => .error .endOfString
  | '\\' :: [] => .error .endOfString
  | '\\' :: 'u' :: s => do
    let (low, rest) ← readFourHex s
    if isLowHalf low then return (pairedChar high low, rest) else throw .loneSurrogate
  | _ => .error .unfinishedEscape

/-- The character of a numbered escape after its `u`. Two escapes together write a
    character past the first plane. -/
def readNumbered (s : List Char) : Except Fault (Char × List Char) := do
  let (n, rest) ← readFourHex s
  if isLowHalf n then throw .loneSurrogate
  else if isHighHalf n then readLowHalf n rest
  else return (Char.ofNat n, rest)

/-- The character that a letter after a backslash stands for. -/
def escaped? : Char → Option Char
  | '"' => some '"'
  | '\\' => some '\\'
  | '/' => some '/'
  | 'b' => some '\x08'
  | 'f' => some '\x0c'
  | 'n' => some '\n'
  | 'r' => some '\r'
  | 't' => some '\t'
  | _ => none

/-- The character of an escape after its backslash. -/
def readEscape : List Char → Except Fault (Char × List Char)
  | [] => .error .endOfString
  | c :: s =>
    if c = 'u' then readNumbered s
    else
      match escaped? c with
      | some d => .ok (d, s)
      | none => .error .invalidEscape

theorem length_readFourHex_lt {s rest : List Char} {n : Nat}
    (h : readFourHex s = .ok (n, rest)) : rest.length < s.length := by
  unfold readFourHex at h
  split at h
  · split at h
    · cases h
      simp only [List.length_cons]
      omega
    · cases h
  · cases h

theorem length_readLowHalf_lt {s rest : List Char} {high : Nat} {c : Char}
    (h : readLowHalf high s = .ok (c, rest)) : rest.length < s.length := by
  unfold readLowHalf at h
  split at h
  · cases h
  · cases h
  · next s =>
    cases hd : readFourHex s with
    | error e => simp [hd, bind, Except.bind] at h
    | ok p =>
      obtain ⟨low, r⟩ := p
      have hr := length_readFourHex_lt hd
      simp only [hd, bind, Except.bind, pure, Except.pure, throw, throwThe,
        MonadExceptOf.throw] at h
      split at h
      · simp only [Except.ok.injEq, Prod.mk.injEq] at h
        rw [← h.2]
        simp only [List.length_cons]
        omega
      · cases h
  · cases h

theorem length_readNumbered_lt {s rest : List Char} {c : Char}
    (h : readNumbered s = .ok (c, rest)) : rest.length < s.length := by
  unfold readNumbered at h
  cases hd : readFourHex s with
  | error e => simp [hd, bind, Except.bind] at h
  | ok p =>
    obtain ⟨n, r⟩ := p
    have hr := length_readFourHex_lt hd
    simp only [hd, bind, Except.bind, pure, Except.pure, throw, throwThe,
      MonadExceptOf.throw] at h
    split at h
    · cases h
    · split at h
      · have := length_readLowHalf_lt h
        omega
      · cases h
        exact hr

theorem length_readEscape_lt {s rest : List Char} {c : Char}
    (h : readEscape s = .ok (c, rest)) : rest.length < s.length := by
  unfold readEscape at h
  split at h
  · cases h
  · split at h
    · have := length_readNumbered_lt h
      simp only [List.length_cons]
      omega
    · split at h
      · cases h
        simp
      · cases h

/-- The characters of a string after its opening quote, and the document after its
    closing one. -/
def readChars (s : List Char) : Except Fault (List Char × List Char) :=
  match s with
  | [] => .error .endOfString
  | '"' :: rest => .ok ([], rest)
  | '\\' :: rest =>
    match _hread : readEscape rest with
    | .error e => .error e
    | .ok (c, rest') => do
      let (cs, rest) ← readChars rest'
      return (c :: cs, rest)
  | c :: rest =>
    if c.toNat < 0x20 then .error .controlCharacter
    else do
      let (cs, rest) ← readChars rest
      return (c :: cs, rest)
termination_by s.length
decreasing_by
  all_goals simp only [List.length_cons]
  · have := length_readEscape_lt _hread
    omega
  · omega

theorem length_readChars_lt {s cs rest : List Char}
    (h : readChars s = .ok (cs, rest)) : rest.length < s.length := by
  fun_induction readChars s generalizing cs with
  | case1 => cases h
  | case2 rest' => cases h; simp
  | case3 => cases h
  | case4 rest' c rest'' he ih =>
    have hlt := length_readEscape_lt he
    cases hd : readChars rest'' with
    | error e => simp [hd, bind, Except.bind] at h
    | ok p =>
      obtain ⟨cs', r⟩ := p
      simp only [hd, bind, Except.bind, pure, Except.pure] at h
      cases h
      have := ih hd
      simp only [List.length_cons]
      omega
  | case5 => cases h
  | case6 c rest' _ _ hc ih =>
    cases hd : readChars rest' with
    | error e => simp [hd, bind, Except.bind] at h
    | ok p =>
      obtain ⟨cs', r⟩ := p
      simp only [hd, bind, Except.bind, pure, Except.pure] at h
      cases h
      have := ih hd
      simp only [List.length_cons]
      omega

/-! ## Values where another type is expected -/

/-- The fault of a value at the front of a document where `expected` should stand. -/
def misfit (expected : String) (s : List Char) : Fault :=
  let named (found : Found) (reading : Except Fault (List Char)) : Fault :=
    match reading with
    | .ok _ => .invalidType found expected
    | .error e => e
  let number (reading : Except Fault (Number × List Char)) : Fault :=
    match reading with
    | .ok (n, _) => .invalidType n.found expected
    | .error e => e
  match s with
  | 'n' :: s => named .null (readWord "ull".toList s)
  | 't' :: s => named (.boolean true) (readWord "rue".toList s)
  | 'f' :: s => named (.boolean false) (readWord "alse".toList s)
  | '-' :: s => number (Number.read false s)
  | '"' :: s =>
    match readChars s with
    | .ok (cs, _) => .invalidType (.string (String.ofList cs)) expected
    | .error e => e
  | '[' :: _ => .invalidType .sequence expected
  | '\x7b' :: _ => .invalidType .map expected
  | c :: _ => if c.isDigit then number (Number.read true s) else .expectedValue
  | [] => .expectedValue

/-! ## Values of an expected type -/

/-- A number that has been read where a natural number below `limit` is expected. -/
def naturalOf (expected : String) (limit : Nat) (n : Number) : Except Fault Nat :=
  match n with
  | .natural value =>
    if value < limit then .ok value else .error (.invalidValue n.found expected)
  | .negative _ => .error (.invalidValue n.found expected)
  | .floating _ => .error (.invalidType n.found expected)

/-- A natural number below `limit`. -/
def readNatural (expected : String) (limit : Nat) (s : List Char) :
    Except Fault (Nat × List Char) := do
  match skipBlanks s with
  | [] => .error .endOfValue
  | '-' :: s =>
    let (n, rest) ← Number.read false s
    return (← naturalOf expected limit n, rest)
  | c :: s =>
    if c.isDigit then
      let (n, rest) ← Number.read true (c :: s)
      return (← naturalOf expected limit n, rest)
    else .error (misfit expected (c :: s))

/-- A string. -/
def readString (expected : String) (s : List Char) : Except Fault (String × List Char) :=
  match skipBlanks s with
  | [] => .error .endOfValue
  | '"' :: s => do
    let (cs, rest) ← readChars s
    return (String.ofList cs, rest)
  | s => .error (misfit expected s)

/-- A string, or `null` in its place. -/
def readOptional (expected : String) (s : List Char) :
    Except Fault (Option String × List Char) :=
  match skipBlanks s with
  | 'n' :: s => do return (none, ← readWord "ull".toList s)
  | s => do
    let (text, rest) ← readString expected s
    return (some text, rest)

theorem length_readString_lt {expected text : String} {s rest : List Char}
    (h : readString expected s = .ok (text, rest)) : rest.length < s.length := by
  unfold readString at h
  have hs := length_skipBlanks_le s
  split at h
  · cases h
  · next s' hs' =>
    cases hd : readChars s' with
    | error e => simp [hd, bind, Except.bind] at h
    | ok p =>
      obtain ⟨cs, r⟩ := p
      simp only [hd, bind, Except.bind, pure, Except.pure] at h
      cases h
      have := length_readChars_lt hd
      rw [hs', List.length_cons] at hs
      omega
  · cases h

/-- Where a list goes on: `none` at its closing bracket, or else the document from the
    next element on. A comma stands before every element but the `first`. -/
def nextElement (first : Bool) (s : List Char) : Except Fault (Option (List Char)) :=
  match skipBlanks s with
  | [] => .error .endOfList
  | ']' :: _ => .ok none
  | c :: s =>
    if first then .ok (some (c :: s))
    else if c = ',' then
      match skipBlanks s with
      | [] => .error .endOfValue
      | ']' :: _ => .error .trailingComma
      | s => .ok (some s)
    else .error .expectedCommaOrBracket

/-- The document after the end of a list of which no more elements are wanted. -/
def endList (s : List Char) : Except Fault (List Char) :=
  match skipBlanks s with
  | [] => .error .endOfList
  | ']' :: s => .ok s
  | ',' :: s =>
    match skipBlanks s with
    | ']' :: _ => .error .trailingComma
    | _ => .error .trailingCharacters
  | _ => .error .trailingCharacters

theorem length_nextElement_le {first : Bool} {s t : List Char}
    (h : nextElement first s = .ok (some t)) : t.length ≤ s.length := by
  unfold nextElement at h
  have hs := length_skipBlanks_le s
  split at h
  · cases h
  · cases h
  · next c s' _ hs' =>
    rw [hs', List.length_cons] at hs
    have hs'' := length_skipBlanks_le s'
    split at h
    · cases h
      simpa using hs
    · split at h
      · split at h
        · cases h
        · cases h
        · cases h
          omega
      · cases h

/-- The elements of a list of strings from one element to the next, up to the closing
    bracket, which is left. -/
def readStrings (first : Bool) (s : List Char) : Except Fault (List String × List Char) :=
  match _hnext : nextElement first s with
  | .error e => .error e
  | .ok none => .ok ([], s)
  | .ok (some t) =>
    match _htext : readString "a string" t with
    | .error e => .error e
    | .ok (text, rest) => do
      let (texts, rest) ← readStrings false rest
      return (text :: texts, rest)
termination_by s.length
decreasing_by
  have := length_nextElement_le _hnext
  have := length_readString_lt _htext
  omega

/-- A list of strings. -/
def readStringList (s : List Char) : Except Fault (List String × List Char) :=
  match skipBlanks s with
  | [] => .error .endOfValue
  | '[' :: s => do
    let (texts, rest) ← readStrings true s
    return (texts, ← endList rest)
  | s => .error (misfit "a sequence" s)

end ShowRelay.Json
