import DepositForm.Announced.Tree
import DepositForm.Decimal
import DepositForm.Json.Fault

/-! # Numbers in JSON

An integer in the range of a 64-bit word is exact. Every other number is a float that is had in
two roundings: the digits are gathered into a 64-bit word as long as they fit, the word is
rounded, and then multiplied or divided by a rounded power of ten.
-/
namespace DepositForm.Json

/-- The parts of a number, as digits. -/
structure NumberText where
  negative : Bool
  whole : List Char
  fraction : Option (List Char)
  /-- Whether the exponent is negative, its digits, and the place before them. -/
  exponent : Option (Bool × List Char × Nat)

/-- A number as scanned: `error` if it has no value, though its form is right. -/
inductive NumberScan where
  | closed (token : Except Fault Token) (next : Cursor)
  | broken (reading passing : Fault)

def digitValue (c : Char) : Nat := c.toNat - '0'.toNat

/-- Digits gathered into a word: once one does not fit, it and all others are left out. -/
structure Gathered where
  word : Nat
  left : Nat := 0
  taken : Nat := 0
deriving DecidableEq, Repr

def Gathered.add (g : Gathered) (c : Char) : Gathered :=
  let next := g.word * 10 + digitValue c
  if g.left = 0 ∧ next < UInt64.size then { g with word := next, taken := g.taken + 1 }
  else { g with left := g.left + 1 }

def gather (word : Nat) (digits : List Char) : Gathered := digits.foldl Gathered.add { word }

/-- Divides by `10 ^ k`; a power that is no float is taken off in parts. -/
def scaleDown (f : Float) (k : Nat) : Float :=
  if k ≤ 308 then f / Decimal.powerOfTen k
  else if f == 0 then f
  else scaleDown (f / Decimal.powerOfTen 308) (k - 308)
termination_by k

/-- The float for `word * 10 ^ power`, or `none` if it is too large. -/
def scaled (word : Nat) (power : Int) : Option Float :=
  let f := (UInt64.ofNat word).toFloat
  if power < 0 then some (scaleDown f power.natAbs)
  else if power ≤ 308 then
    let g := f * Decimal.powerOfTen power.toNat
    if g.isInf then none else some g
  else if word = 0 then some f
  else none

/-- Exponents must lie below this number. -/
def exponentLimit : Nat := 0x80000000

/-- The value of exponent digits, or the place after the digit with which they reach the limit. -/
def exponentValue (value place : Nat) : List Char → Except Nat Nat
  | [] => .ok value
  | c :: rest =>
    let next := value * 10 + digitValue c
    if exponentLimit ≤ next then .error (place + 1) else exponentValue next (place + 1) rest

/-- The token of an integer that fits a word; zero with a sign and integers below the signed range
are floats. -/
def integerToken (negative : Bool) (word : Nat) : Token :=
  if negative then
    if 0 < word ∧ word ≤ signedLimit then .signed (Int64.ofInt (-word))
    else .float (-(UInt64.ofNat word).toFloat)
  else .unsigned (UInt64.ofNat word)

namespace NumberText

/-- The value of a number that ends at `place`. -/
def token (n : NumberText) (place : Nat) : Except Fault Token :=
  let whole := gather 0 n.whole
  match n.fraction, n.exponent, whole.left with
  | none, none, 0 => .ok (integerToken n.negative whole.word)
  | _, _, _ =>
    let all := gather whole.word (n.fraction.getD [])
    let power : Int := whole.left - all.taken
    let result (power : Int) : Except Fault Token :=
      match scaled all.word power with
      | some f => .ok (.float (if n.negative then -f else f))
      | none => .error ⟨.numberRange, place⟩
    match n.exponent with
    | none => result power
    | some (down, digits, start) =>
      match exponentValue 0 start digits with
      | .ok e => result (if down then power - e else power + e)
      | .error overflow =>
        if all.word ≠ 0 ∧ !down then .error ⟨.numberRange, overflow⟩
        else .ok (.float (if n.negative then -0.0 else 0.0))

end NumberText

/-- A digit is missing here. -/
def missingDigit (c : Cursor) : NumberScan :=
  .broken (c.fault (if c.rest.isEmpty then .endInValue else .badNumber)) (c.fault .badNumber)

/-- The exponent, if there is one: whether it is negative, and the cursor at its digits. -/
def exponentSign (c : Cursor) : Option (Bool × Cursor) :=
  match c.rest with
  | e :: rest =>
    if e = 'e' || e = 'E' then
      match rest with
      | '-' :: rest => some (true, ⟨rest, c.place + 2⟩)
      | '+' :: rest => some (false, ⟨rest, c.place + 2⟩)
      | rest => some (false, ⟨rest, c.place + 1⟩)
    else none
  | [] => none

/-- Scans what follows the digits before the point. -/
def scanAfterWhole (negative : Bool) (whole : List Char) (c : Cursor) : NumberScan :=
  let afterPoint (fraction : Option (List Char)) (c : Cursor) : NumberScan :=
    match exponentSign c with
    | none =>
      .closed (NumberText.token ⟨negative, whole, fraction, none⟩ c.place) c
    | some (down, start) =>
      let (digits, next) := start.span Char.isDigit
      let exponent := some (down, digits, start.place)
      if digits.isEmpty then missingDigit start
      else .closed (NumberText.token ⟨negative, whole, fraction, exponent⟩ next.place) next
  match c.rest with
  | '.' :: rest =>
    let start : Cursor := ⟨rest, c.place + 1⟩
    let (digits, next) := start.span Char.isDigit
    if digits.isEmpty then missingDigit start else afterPoint (some digits) next
  | _ => afterPoint none c

/-- Scans a number after its sign. No digit may follow a zero at the front. -/
def scanUnsigned (negative : Bool) (c : Cursor) : NumberScan :=
  let (whole, next) := c.span Char.isDigit
  match whole with
  | [] => missingDigit c
  | '0' :: _ :: _ =>
    .broken ⟨.badNumber, c.place + 2⟩ ⟨.badNumber, c.place + 2⟩
  | _ => scanAfterWhole negative whole next

/-- Scans a number that begins here. -/
def scanNumber (c : Cursor) : NumberScan :=
  match c.rest with
  | '-' :: rest => scanUnsigned true ⟨rest, c.place + 1⟩
  | _ => scanUnsigned false c

end DepositForm.Json
