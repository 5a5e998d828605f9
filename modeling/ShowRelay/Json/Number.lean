/-
  ShowRelay.Json.Number

  Numbers of a JSON document. Whole numbers that fit in 64 bits are exact. Every
  other number is a floating-point one: the leading digits that fit in 64 bits,
  scaled by a power of ten.
-/

import ShowRelay.Decimal.Shortest
import ShowRelay.Json.Fault

namespace ShowRelay.Json

/-- A number of a document. -/
inductive Number where
  -- A natural number of at most 64 bits.
  | natural (value : Nat)
  -- The negative of a positive number of at most `2 ^ 63`.
  | negative (magnitude : Nat)
  | floating (value : Float)

namespace Number

/-- How floating-point numbers are written. -/
def format : Decimal.FloatFormat :=
  { minPositional := -5, maxPositional := 15, exponentDigits := 1 }

/-- A number as a fault names it. -/
def found : Number → Found
  | natural value => .integer value
  | negative magnitude => .integer (-magnitude)
  | floating value => .floating (format.text value)

/-- The value of a decimal digit. -/
def digit? (c : Char) : Option Nat :=
  if c.isDigit then some (c.toNat - '0'.toNat) else none

/-- The longest beginning of some digits that keeps a number at most `bound` when they
    are appended to it: the number, how many digits it took, and the digits left. -/
def take (bound : Nat) : (value : Nat) → List Char → Nat × Nat × List Char
  | value, [] => (value, 0, [])
  | value, c :: digits =>
    let next := value * 10 + (digit? c).getD 0
    if bound < next then (value, 0, c :: digits)
    else
      let (value, count, left) := take bound next digits
      (value, count + 1, left)

/-- A power of ten. -/
def tenTo (n : Nat) : Float := Float.ofScientific 1 false n

/-- The greatest power of ten in the range of floating-point numbers. -/
def maxTen : Nat := 308

/-- A floating-point number times a negative power of ten, divided in steps. -/
def shrink : (steps : Nat) → Float → (power : Nat) → Float
  | 0, value, power => value / tenTo power
  | steps + 1, value, power =>
    if power ≤ maxTen then value / tenTo power
    else if value == 0 then value
    else shrink steps (value / tenTo maxTen) (power - maxTen)

/-- The floating-point number `significand * 10 ^ power`. -/
def scaled (positive : Bool) (significand : Nat) (power : Int) : Except Fault Number :=
  let signed (x : Float) : Number := floating (if positive then x else -x)
  let value := (UInt64.ofNat significand).toFloat
  if power < 0 then .ok (signed (shrink (power.natAbs / maxTen + 1) value power.natAbs))
  else if power.natAbs ≤ maxTen then
    let value := value * tenTo power.natAbs
    if value.isInf then .error .numberOutOfRange else .ok (signed value)
  else if significand = 0 then .ok (signed value)
  else .error .numberOutOfRange

/-- The greatest exponent that is evaluated. -/
def maxExponent : Nat := Nat.pow 2 31 - 1

/-- The rest of a number after the letter of its exponent. -/
def readExponent (positive : Bool) (significand : Nat) (power : Int) (s : List Char) :
    Except Fault (Number × List Char) :=
  let (grows, s) := match s with
    | '+' :: s => (true, s)
    | '-' :: s => (false, s)
    | s => (true, s)
  match s with
  | [] => .error .endOfValue
  | c :: _ =>
    if !c.isDigit then .error .invalidNumber
    else
      let rest := s.dropWhile Char.isDigit
      match take maxExponent 0 (s.takeWhile Char.isDigit) with
      | (exponent, _, []) => do
        let number ← scaled positive significand
          (if grows then power + exponent else power - exponent)
        return (number, rest)
      | _ =>
        if significand ≠ 0 && grows then .error .numberOutOfRange
        else .ok (floating (if positive then 0 else -0), rest)

/-- A number whose digits have been read, with an exponent if one follows. -/
def readScaled (positive : Bool) (significand : Nat) (power : Int) (s : List Char) :
    Except Fault (Number × List Char) :=
  match s with
  | 'e' :: s | 'E' :: s => readExponent positive significand power s
  | s => do return (← scaled positive significand power, s)

/-- The rest of a number after its decimal point. -/
def readFraction (positive : Bool) (significand : Nat) (power : Int) (s : List Char) :
    Except Fault (Number × List Char) :=
  let rest := s.dropWhile Char.isDigit
  match s.takeWhile Char.isDigit with
  | [] => .error (if s.isEmpty then .endOfValue else .invalidNumber)
  | digits =>
    let (significand, count, _) := take maxNatural significand digits
    readScaled positive significand (power - count) rest

/-- The rest of a number after its whole digits, of which those left over had no room. -/
def readTail (positive : Bool) (significand leftOver : Nat) (s : List Char) :
    Except Fault (Number × List Char) :=
  match s with
  | '.' :: s => readFraction positive significand leftOver s
  | 'e' :: _ | 'E' :: _ => readScaled positive significand leftOver s
  | s =>
    if leftOver ≠ 0 then readScaled positive significand leftOver s
    else if positive then .ok (natural significand, s)
    else if significand ≠ 0 ∧ significand ≤ Nat.pow 2 63 then .ok (negative significand, s)
    else .ok (floating (-(UInt64.ofNat significand).toFloat), s)

/-- A number after its sign. -/
def read (positive : Bool) (s : List Char) : Except Fault (Number × List Char) :=
  match s with
  | [] => .error .endOfValue
  | '0' :: s =>
    if s.head?.any Char.isDigit then .error .invalidNumber else readTail positive 0 0 s
  | c :: _ =>
    if !c.isDigit then .error .invalidNumber
    else
      let (significand, _, left) := take maxNatural 0 (s.takeWhile Char.isDigit)
      readTail positive significand left.length (s.dropWhile Char.isDigit)

end Number

end ShowRelay.Json
