/-! # Floats and their decimal forms

A float is written by its shortest decimal form and read as the nearest one to a decimal number.

A finite float is a whole number times a power of two; the reals that round to it form an
interval around it, ends included when the whole number is even. On the grid of numbers with 1,
2, ... digits only the two neighbours of the float itself can be the nearest ones inside, so the
first grid with a hit is the shortest form. All of it is exact arithmetic on natural numbers.
-/
namespace DepositForm.Decimal

/-! ## The shortest form -/

/-- A float taken apart: `finite` is `significand * 2 ^ exponent`, with a sign. -/
inductive Parts where
  | nan
  | infinite (negative : Bool)
  | finite (negative : Bool) (significand : Nat) (exponent : Int)
deriving DecidableEq, Repr

/-- The bit that a significand has in front of its fraction, unless the exponent is the least. -/
def leadingBit : Nat := 0x10000000000000

/-- Reads sign, exponent and fraction off the bits. -/
def Parts.ofFloat (x : Float) : Parts :=
  let bits := x.toBits.toNat
  let negative := decide (bits / 0x8000000000000000 = 1)
  let exponent : Nat := bits / leadingBit % 0x800
  let fraction : Nat := bits % leadingBit
  if exponent = 2047 then
    if fraction = 0 then .infinite negative else .nan
  else if exponent = 0 then .finite negative fraction (-1074)
  else .finite negative (fraction + leadingBit) ((exponent : Int) - 1075)

/-- The number `digits * 10 ^ power`. -/
structure Digits where
  digits : Nat
  power : Int
deriving DecidableEq, Repr

/-- Which neighbour is taken when the value stands exactly between two. -/
inductive Tie where
  | up
  | even
deriving DecidableEq, Repr

/-- The number of decimal digits of a positive number. -/
def digitCount (n : Nat) : Nat := (Nat.toDigits 10 n).length

/-- Removes up to `n` zeros at the end. -/
def dropZeros : Nat → Digits → Digits
  | 0, d => d
  | n + 1, d =>
    if d.digits ≠ 0 ∧ d.digits % 10 = 0 then dropZeros n ⟨d.digits / 10, d.power + 1⟩ else d

/-- The power of ten of the leading digit of the positive fraction `num / den`. -/
def leadingPower (num den : Nat) : Int :=
  if den ≤ num then (digitCount (num / den) : Int) - 1
  else
    0 - (digitCount ((den + num - 1) / num - 1) : Int)

/-- An interval of fractions over one denominator. -/
structure Interval where
  low : Nat
  mid : Nat
  high : Nat
  den : Nat
  closed : Bool

/-- The reals that round to `significand * 2 ^ exponent`. Below a power of two the gap is half as
wide. -/
def roundingInterval (significand : Nat) (exponent : Int) : Interval :=
  let below := if significand = leadingBit ∧ exponent ≠ -1074 then 1 else 2
  let scale := exponent - 2
  let up := Nat.pow 2 scale.toNat
  { low := (4 * significand - below) * up
    mid := 4 * significand * up
    high := (4 * significand + 2) * up
    den := Nat.pow 2 (-scale).toNat
    closed := significand % 2 = 0 }

/-- The point of the grid with unit `10 ^ power` that is inside and nearest to the middle. -/
def Interval.onGrid? (i : Interval) (tie : Tie) (power : Int) : Option Nat :=
  let up := Nat.pow 10 (-power).toNat
  let den := i.den * Nat.pow 10 power.toNat
  let floor := i.mid * up / den
  let rest := i.mid * up % den
  let downInside := i.low * up < floor * den || (i.closed && i.low * up == floor * den)
  let upInside := (floor + 1) * den < i.high * up || (i.closed && (floor + 1) * den == i.high * up)
  match downInside, upInside with
  | false, false => none
  | true, false => some floor
  | false, true => some (floor + 1)
  | true, true =>
    if 2 * rest < den then some floor
    else if den < 2 * rest then some (floor + 1)
    else match tie with
      | .up => some (floor + 1)
      | .even => some (if floor % 2 = 0 then floor else floor + 1)

/-- Tries the grids of `count`, `count + 1`, ... digits, at most `tries` of them. -/
def Interval.search (i : Interval) (tie : Tie) (lead : Int) : Nat → Nat → Digits
  | 0, _ => ⟨i.mid / i.den, 0⟩
  | tries + 1, count =>
    let power := lead + 1 - count
    match i.onGrid? tie power with
    | some digits => ⟨digits, power⟩
    | none => i.search tie lead tries (count + 1)

/-- The shortest digits of the positive number `significand * 2 ^ exponent`, without zeros at the
end. Seventeen digits always suffice. -/
def shortest (tie : Tie) (significand : Nat) (exponent : Int) : Digits :=
  let i := roundingInterval significand exponent
  dropZeros 18 (i.search tie (leadingPower i.mid i.den) 17 1)

/-! ## The nearest float

Reading a decimal number rounds once, to the nearest float.
-/

/-- The nearest float to `digits * 10 ^ power`; numbers too large give infinity. Powers far outside
the range of floats are decided by the position of the leading digit alone. -/
def nearest (digits : Nat) (power : Int) : Float :=
  if digits = 0 then 0
  else
    let lead := digitCount digits + power
    if lead > 310 then 1 / 0
    else if lead < -330 then 0
    else Float.ofScientific digits (power < 0) power.natAbs

/-- The nearest 32-bit float to `digits * 10 ^ power`, widened. -/
def nearest32 (digits : Nat) (power : Int) : Float :=
  if digits = 0 then 0
  else
    let lead := digitCount digits + power
    if lead > 40 then 1 / 0
    else if lead < -60 then 0
    else (Float32.ofScientific digits (power < 0) power.natAbs).toFloat

/-- The nearest float to `10 ^ power`. -/
def powerOfTen (power : Nat) : Float := nearest 1 power

/-! ## Layouts

Which exponents are spelled out, whether a whole number keeps a point, and which way a tie
between two shortest forms goes.
-/

/-- The decisions of one way of writing floats. -/
structure Layout where
  tie : Tie
  /-- The exponents of the leading digit that are written without `e`, as a half-open range;
  `none` for all. -/
  positional : Option (Int × Int)
  /-- A number without fraction digits ends in `.0` when it is written without `e`. -/
  keepsPoint : Bool

/-- Every digit is spelled out, whole numbers have no point. -/
def Layout.plain : Layout := ⟨.up, none, false⟩

/-- Every digit is spelled out, whole numbers end in `.0`. -/
def Layout.pointed : Layout := ⟨.up, none, true⟩

/-- Numbers from `10 ^ -5` up to `10 ^ 16` are spelled out with a point, others have an exponent
with a sign. -/
def Layout.exchange : Layout := ⟨.even, some (-5, 16), true⟩

/-- Puts the point `places` digits after the first digit of `digits`; `places` may lie outside. -/
def positionalText (keepsPoint : Bool) (digits : List Char) (places : Int) : List Char :=
  if places ≤ 0 then
    '0' :: '.' :: List.replicate (-places).toNat '0' ++ digits
  else if digits.length ≤ places.toNat then
    digits ++ List.replicate (places.toNat - digits.length) '0' ++
      if keepsPoint then ['.', '0'] else []
  else digits.take places.toNat ++ '.' :: digits.drop places.toNat

/-- One digit, the others after a point, and the exponent with its sign. -/
def exponentText (digits : List Char) (exponent : Int) : List Char :=
  let sign := if exponent < 0 then '-' else '+'
  let fraction := if digits.length ≤ 1 then [] else '.' :: digits.drop 1
  digits.take 1 ++ fraction ++ 'e' :: sign :: Nat.toDigits 10 exponent.natAbs

def Layout.digitsText (l : Layout) (d : Digits) : List Char :=
  let digits := Nat.toDigits 10 d.digits
  let exponent := digits.length + d.power - 1
  match l.positional with
  | some (low, high) =>
    if low ≤ exponent ∧ exponent < high then positionalText l.keepsPoint digits (exponent + 1)
    else exponentText digits exponent
  | none => positionalText l.keepsPoint digits (exponent + 1)

/-- The text of a float. -/
def Layout.text (l : Layout) (x : Float) : String :=
  match Parts.ofFloat x with
  | .nan => "NaN"
  | .infinite negative => if negative then "-inf" else "inf"
  | .finite negative significand exponent =>
    let body :=
      if significand = 0 then (if l.keepsPoint then ['0', '.', '0'] else ['0'])
      else l.digitsText (shortest l.tie significand exponent)
    String.ofList (if negative then '-' :: body else body)

end DepositForm.Decimal
