/-
  ShowRelay.Text.Numeral

  Whole numbers as digits. A numeral is read as the longest run of digits of a
  base at the front of a text, under the bounds that a format puts on it: its
  value, its number of digits, and whether it may begin with a superfluous zero.

  Reading stops at the digit that leads to the bound, so that a number far too
  large costs no more than its digits (`valueBelow?_eq`).
-/

namespace ShowRelay.Text

/-- The value of a digit in bases up to sixteen; letters count in either case. -/
def digitValue? (base : Nat) (c : Char) : Option Nat :=
  let n := c.toNat
  let value :=
    if '0'.toNat ≤ n ∧ n ≤ '9'.toNat then some (n - '0'.toNat)
    else if 'a'.toNat ≤ n ∧ n ≤ 'f'.toNat then some (n - 'a'.toNat + 10)
    else if 'A'.toNat ≤ n ∧ n ≤ 'F'.toNat then some (n - 'A'.toNat + 10)
    else none
  value.filter (· < base)

/-- Whether a character is a digit of a base. -/
def isDigitOf (base : Nat) (c : Char) : Bool := (digitValue? base c).isSome

/-- The value of a run of digits that follow a number. -/
def appendDigits (base value : Nat) (digits : List Char) : Nat :=
  digits.foldl (fun n c => n * base + (digitValue? base c).getD 0) value

/-- The value of a run of digits. -/
def digitsValue (base : Nat) (digits : List Char) : Nat := appendDigits base 0 digits

theorem le_appendDigits {base : Nat} (h : 0 < base) (value : Nat) (digits : List Char) :
    value ≤ appendDigits base value digits := by
  induction digits generalizing value with
  | nil => exact Nat.le_refl value
  | cons c digits ih =>
    have first : value ≤ value * base + (digitValue? base c).getD 0 :=
      Nat.le_trans (Nat.le_mul_of_pos_right value h) (Nat.le_add_right _ _)
    exact Nat.le_trans first (ih _)

/-- The value of a run of digits that follow a number below `limit`, as long as it is
    below it too. Later digits never make a value smaller, so the first one that
    leads to the limit decides. -/
def valueBelow? (base limit : Nat) : (value : Nat) → List Char → Option Nat
  | value, [] => some value
  | value, c :: digits =>
    let next := value * base + (digitValue? base c).getD 0
    if next < limit then valueBelow? base limit next digits else none

/-- Below the limit the value is that of all digits. -/
theorem valueBelow?_eq {base limit value : Nat} (h : 0 < base) (below : value < limit)
    (digits : List Char) :
    valueBelow? base limit value digits =
      if appendDigits base value digits < limit then some (appendDigits base value digits)
      else none := by
  induction digits generalizing value with
  | nil => simp [valueBelow?, appendDigits, below]
  | cons c digits ih =>
    have step : appendDigits base value (c :: digits) =
        appendDigits base (value * base + (digitValue? base c).getD 0) digits := rfl
    rw [step, valueBelow?]
    by_cases hn : value * base + (digitValue? base c).getD 0 < limit
    · simp only [if_pos hn]
      exact ih hn
    · have reached := le_appendDigits h (value * base + (digitValue? base c).getD 0) digits
      rw [if_neg hn, if_neg (by omega)]

/-- What a format admits as a numeral. -/
structure NumeralForm where
  base : Nat
  -- The value has to be smaller than this.
  limit : Nat
  -- The greatest number of digits, if there is one.
  maxDigits : Option Nat := none
  -- Whether a numeral of several digits may begin with a zero.
  leadingZeros : Bool := true

/-- The value of the numeral at the front of a text, and the text after it. -/
def NumeralForm.read (form : NumeralForm) (s : List Char) : Option (Nat × List Char) :=
  let digits := s.takeWhile (isDigitOf form.base)
  if digits.isEmpty then none
  else if form.maxDigits.any (· < digits.length) then none
  else if !form.leadingZeros && digits.head? = some '0' && 1 < digits.length then none
  else
    (valueBelow? form.base form.limit 0 digits).map fun value =>
      (value, s.dropWhile (isDigitOf form.base))

/-- A decimal number below `limit` as the whole of a text, with a plus sign or without. -/
def unsigned? (limit : Nat) (s : List Char) : Option Nat :=
  let digits := match s with
    | '+' :: rest => rest
    | _ => s
  match NumeralForm.read { base := 10, limit } digits with
  | some (n, []) => some n
  | _ => none

/-- A decimal integer as the whole of a text, with a sign or without. -/
def integer? (limit : Nat) : List Char → Option Int
  | '-' :: digits =>
    if digits.head? = some '+' then none else (unsigned? limit digits).map fun n => -(n : Int)
  | s => (unsigned? limit s).map Int.ofNat

/-- The text after a given character, if the text begins with it. -/
def readChar (c : Char) : List Char → Option (List Char)
  | [] => none
  | d :: rest => if d = c then some rest else none

end ShowRelay.Text
