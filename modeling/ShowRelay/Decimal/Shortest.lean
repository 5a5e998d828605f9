/-
  ShowRelay.Decimal.Shortest

  The shortest decimal number that reads back as a binary floating-point number.
  A finite positive number is `m * 2 ^ q`. The numbers that round to it form an
  interval around it, whose ends belong to it when `m` is even. On the grid of
  the numbers with a given count of digits only the two neighbours of the value
  can be the nearest ones, so it is enough to try these, first with one digit,
  then with two, and so on; seventeen digits always suffice.

  All comparisons are between natural numbers, brought to a common denominator.
-/

namespace ShowRelay.Decimal

/-- A positive number `m * 2 ^ q` in the binary format with 53 digits. -/
structure Binary where
  m : Nat
  q : Int

/-- A decimal number `digits * 10 ^ k`. -/
structure Scaled where
  digits : Nat
  k : Int
  deriving Repr, DecidableEq

namespace Binary

/-- The least power of two in the format. -/
def minPower : Int := -1074

/-- The fraction that holds `x` quarters of the last binary digit. -/
def quarters (b : Binary) (x : Nat) : Nat × Nat :=
  (x * Nat.pow 2 (b.q - 2).toNat, Nat.pow 2 (2 - b.q).toNat)

/-- Twice the distance to the lower neighbour is two quarters, or one where the
    neighbour has a smaller power of two. -/
def below (b : Binary) : Nat :=
  if b.m = Nat.pow 2 52 ∧ minPower < b.q then 1 else 2

/-- The order of `digits * 10 ^ k` and `x` quarters. -/
def compareScaled (b : Binary) (d : Scaled) (x : Nat) : Ordering :=
  let (num, den) := b.quarters x
  compare (d.digits * Nat.pow 10 d.k.toNat * den) (num * Nat.pow 10 (-d.k).toNat)

/-- Whether a decimal number rounds to the binary one. -/
def roundsTo (b : Binary) (d : Scaled) : Bool :=
  let low := b.compareScaled d (4 * b.m - b.below)
  let high := b.compareScaled d (4 * b.m + 2)
  if b.m % 2 = 0 then low ≠ .lt && high ≠ .gt else low = .gt && high = .lt

/-- The decimal neighbour at or below the value on the grid of multiples of `10 ^ k`. -/
def floorAt (b : Binary) (k : Int) : Scaled :=
  let (num, den) := b.quarters (4 * b.m)
  ⟨num * Nat.pow 10 (-k).toNat / (den * Nat.pow 10 k.toNat), k⟩

/-- The power of ten of the first digit of a value below one, searched from
    `10 ^ -tried` downwards. -/
def leadingBelow (num den : Nat) : (fuel tried : Nat) → Int
  | 0, tried => -tried
  | fuel + 1, tried =>
    if den ≤ num * Nat.pow 10 tried then -tried else leadingBelow num den fuel (tried + 1)

/-- The power of ten of the first decimal digit. -/
def leading (b : Binary) : Int :=
  let (num, den) := b.quarters (4 * b.m)
  if den ≤ num then ((Nat.toDigits 10 (num / den)).length : Int) - 1
  else leadingBelow num den 400 1

/-- Of the two neighbours on a grid, the nearest that rounds to the value. -/
def nearestAt? (b : Binary) (k : Int) : Option Scaled :=
  let down := b.floorAt k
  let up : Scaled := ⟨down.digits + 1, k⟩
  match b.roundsTo down, b.roundsTo up with
  | true, false => some down
  | false, true => some up
  | false, false => none
  | true, true =>
    let twice : Scaled := ⟨down.digits + up.digits, k⟩
    match b.compareScaled twice (8 * b.m) with
    | .gt => some down
    | .lt => some up
    | .eq => some (if down.digits % 2 = 0 then down else up)

/-- The digits without the zeros at their end. -/
def trim : (fuel : Nat) → Scaled → Scaled
  | 0, d => d
  | fuel + 1, d =>
    if d.digits % 10 = 0 ∧ d.digits ≠ 0 then trim fuel ⟨d.digits / 10, d.k + 1⟩ else d

/-- The shortest decimal number that rounds to the value, the nearest among those. -/
def shortest (b : Binary) : Scaled :=
  let first := b.leading
  let grids := (List.range 17).map fun n : Nat => first - (n : Int)
  trim 20 ((grids.findSome? b.nearestAt?).getD (b.floorAt (first - 16)))

end Binary

/-! ## Text -/

/-- How a format writes a decimal number. -/
structure FloatFormat where
  -- The least power of the first digit that is written without an exponent.
  minPositional : Int
  maxPositional : Int
  -- The least number of digits of an exponent.
  exponentDigits : Nat

namespace FloatFormat

/-- Digits with a point behind the digit of power zero. -/
def positional (digits : List Char) (first : Int) : List Char :=
  if first < 0 then "0.".toList ++ List.replicate (-first - 1).toNat '0' ++ digits
  else
    let whole := first.toNat + 1
    if digits.length ≤ whole then
      digits ++ List.replicate (whole - digits.length) '0' ++ ".0".toList
    else digits.take whole ++ '.' :: digits.drop whole

/-- Digits with a point behind the first and the exponent with its sign. -/
def scientific (format : FloatFormat) (digits : List Char) (first : Int) : List Char :=
  let mantissa := match digits with
    | d :: e :: rest => d :: '.' :: e :: rest
    | short => short
  let exponent := Nat.toDigits 10 first.natAbs
  let zeros := List.replicate (format.exponentDigits - exponent.length) '0'
  mantissa ++ 'e' :: (if first < 0 then '-' else '+') :: zeros ++ exponent

/-- The text of a decimal number. -/
def chars (format : FloatFormat) (d : Scaled) : List Char :=
  let digits := Nat.toDigits 10 d.digits
  let first := d.k + digits.length - 1
  if format.minPositional ≤ first ∧ first ≤ format.maxPositional then positional digits first
  else format.scientific digits first

/-- The text of a finite floating-point number: its sign, zero as `0.0`, and else the
    shortest decimal number that reads back. -/
def text (format : FloatFormat) (x : Float) : String :=
  let bits := x.toBits.toNat
  let sign := if bits < Nat.pow 2 63 then [] else ['-']
  let biased := bits / Nat.pow 2 52 % Nat.pow 2 11
  let fraction := bits % Nat.pow 2 52
  let magnitude :=
    if biased = 0 ∧ fraction = 0 then "0.0".toList
    else
      let b : Binary :=
        if biased = 0 then ⟨fraction, Binary.minPower⟩
        else ⟨Nat.pow 2 52 + fraction, Int.ofNat biased - 1075⟩
      format.chars b.shortest
  String.ofList (sign ++ magnitude)

end FloatFormat

end ShowRelay.Decimal
