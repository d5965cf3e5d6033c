import DepositForm.Announced.Tree
import DepositForm.Decimal
import DepositForm.Letter.Escape

/-! # Numbers, dates and times in TOML

Single underscores may stand between digits. An integer must fit a signed 64-bit word; a float
is the nearest one, and must not be too large.

The parts of a date or time are checked, and it is taken as a text in a normal form: `T` between
date and time, the fraction of a second cut to nine digits and without zeros at the end, `Z` for
the zone at zero if it was written so, and no minus before a zero offset.
-/
namespace DepositForm.Toml

/-! ## Numbers -/

/-- The digits that come next, without the underscores between them, and what follows. -/
def digitsFrom (isDigit : Char → Bool) : List Char → List Char × List Char
  | '_' :: c :: rest =>
    if isDigit c then
      let (digits, rest) := digitsFrom isDigit rest
      (c :: digits, rest)
    else ([], '_' :: c :: rest)
  | c :: rest =>
    if isDigit c then
      let (digits, rest) := digitsFrom isDigit rest
      (c :: digits, rest)
    else ([], c :: rest)
  | [] => ([], [])

/-- At least one digit, and the digits that follow it. -/
def readDigits (isDigit : Char → Bool) : List Char → Option (List Char × List Char)
  | c :: rest =>
    if isDigit c then
      let (digits, rest) := digitsFrom isDigit rest
      some (c :: digits, rest)
    else none
  | [] => none

/-- The number some digits stand for. -/
def numberOf (base : Nat) (digits : List Char) : Nat :=
  digits.foldl (fun n c => base * n + (Letter.hexDigit? c).getD 0) 0

/-- A sign, if there is one: whether it is a minus, and what follows. -/
def readSign : List Char → Bool × List Char
  | '-' :: rest => (true, rest)
  | '+' :: rest => (false, rest)
  | rest => (false, rest)

/-- The digits of a decimal number before a point: no zero stands in front of others. -/
def readWhole : List Char → Option (List Char × List Char)
  | '0' :: rest => some (['0'], rest)
  | rest => readDigits Char.isDigit rest

/-- An integer with the given digits, if it fits. -/
def integerToken? (negative : Bool) (base : Nat) (digits : List Char) : Option Token :=
  let n := numberOf base digits
  if n < signedLimit then some (.signed (Int64.ofInt (if negative then -n else n)))
  else if negative ∧ n = signedLimit then some (.signed (Int64.ofInt (-n)))
  else none

def isHexDigit (c : Char) : Bool := (Letter.hexDigit? c).isSome

def isOctalDigit (c : Char) : Bool := '0' ≤ c && c ≤ '7'

def isBinaryDigit (c : Char) : Bool := c = '0' || c = '1'

/-- Digits to a base, after the sign of the base. -/
def readBased (base : Nat) (isDigit : Char → Bool) (cs : List Char) :
    Option (Token × List Char) := do
  let (digits, rest) ← readDigits isDigit cs
  let t ← integerToken? false base digits
  return (t, rest)

def readInteger : List Char → Option (Token × List Char)
  | '0' :: 'x' :: rest => readBased 16 isHexDigit rest
  | '0' :: 'o' :: rest => readBased 8 isOctalDigit rest
  | '0' :: 'b' :: rest => readBased 2 isBinaryDigit rest
  | cs => do
    let (negative, rest) := readSign cs
    let (digits, rest) ← readWhole rest
    let t ← integerToken? negative 10 digits
    return (t, rest)

/-- An exponent from its letter on. -/
def readExponent : List Char → Option (Int × List Char)
  | e :: rest =>
    if e = 'e' ∨ e = 'E' then do
      let (negative, rest) := readSign rest
      let (digits, rest) ← readDigits Char.isDigit rest
      let n : Int := numberOf 10 digits
      return (if negative then -n else n, rest)
    else none
  | [] => none

/-- The float nearest to `digits * 10 ^ power`. One beyond all floats is none, unless it is
negative: then it is infinite. -/
def floatToken? (negative : Bool) (digits : List Char) (power : Int) : Option Token :=
  let f := Decimal.nearest (numberOf 10 digits) power
  if negative then some (.float (-f))
  else if f.isInf then none
  else some (.float f)

/-- A float: digits and a fraction, an exponent or both, or one of the two words. -/
def readFloat (cs : List Char) : Option (Token × List Char) :=
  let (negative, rest) := readSign cs
  match rest with
  | 'i' :: 'n' :: 'f' :: rest => some (.float (if negative then -1 / 0 else 1 / 0), rest)
  | 'n' :: 'a' :: 'n' :: rest => some (.float (if negative then -(0 / 0) else 0 / 0), rest)
  | _ => do
    let (whole, rest) ← readWhole rest
    let (fraction, rest) ←
      match rest with
      | '.' :: rest => readDigits Char.isDigit rest
      | rest => some ([], rest)
    match readExponent rest with
    | some (exponent, rest) =>
      let t ← floatToken? negative (whole ++ fraction) (exponent - fraction.length)
      return (t, rest)
    | none =>
      if fraction.isEmpty then none
      else
        let t ← floatToken? negative (whole ++ fraction) (-fraction.length)
        return (t, rest)

/-! ## Dates and times -/

/-- Exactly `count` digits, and what follows. -/
def readFixed (count : Nat) (cs : List Char) : Option (Nat × List Char) :=
  let digits := cs.take count
  if digits.length = count ∧ digits.all Char.isDigit then
    some (numberOf 10 digits, cs.drop count)
  else none

/-- Two digits for a number between `low` and `high`. -/
def readPart (low high : Nat) (cs : List Char) : Option (Nat × List Char) := do
  let (n, rest) ← readFixed 2 cs
  if low ≤ n ∧ n ≤ high then some (n, rest) else none

/-- What follows `c`, if it stands here. -/
def expect (c : Char) : List Char → Option (List Char)
  | x :: rest => if x = c then some rest else none
  | [] => none

/-- The number with at least `width` digits. -/
def padded (width n : Nat) : String :=
  let digits := Nat.toDigits 10 n
  String.ofList (List.replicate (width - digits.length) '0' ++ digits)

def isLeapYear (year : Nat) : Bool := year % 4 = 0 && (year % 100 ≠ 0 || year % 400 = 0)

def daysInMonth (year month : Nat) : Nat :=
  if month = 2 then if isLeapYear year then 29 else 28
  else if month = 4 ∨ month = 6 ∨ month = 9 ∨ month = 11 then 30
  else 31

/-- A day of the calendar, in normal form. -/
def readDate (cs : List Char) : Option (String × List Char) := do
  let (year, rest) ← readFixed 4 cs
  let (month, rest) ← readPart 1 12 (← expect '-' rest)
  let (day, rest) ← readPart 1 31 (← expect '-' rest)
  if day ≤ daysInMonth year month then
    some (padded 4 year ++ "-" ++ padded 2 month ++ "-" ++ padded 2 day, rest)
  else none

/-- The fraction of a second, in normal form; empty if there is none. -/
def readFraction (cs : List Char) : String × List Char :=
  match cs with
  | '.' :: c :: rest =>
    if c.isDigit then
      let digits := (c :: rest).takeWhile Char.isDigit
      let kept := ((digits.take 9).reverse.dropWhile (· = '0')).reverse
      (if kept.isEmpty then "" else String.ofList ('.' :: kept),
        (c :: rest).dropWhile Char.isDigit)
    else ("", cs)
  | _ => ("", cs)

/-- A time of day, in normal form. A minute may have a second more. -/
def readTime (cs : List Char) : Option (String × List Char) := do
  let (hour, rest) ← readPart 0 23 cs
  let (minute, rest) ← readPart 0 59 (← expect ':' rest)
  let (second, rest) ← readPart 0 60 (← expect ':' rest)
  let (fraction, rest) := readFraction rest
  return (padded 2 hour ++ ":" ++ padded 2 minute ++ ":" ++ padded 2 second ++ fraction, rest)

/-- The offset from the zone at zero, in normal form; empty if there is none. -/
def readOffset (cs : List Char) : Option (String × List Char) :=
  match cs with
  | [] => some ("", [])
  | c :: rest =>
    if c = 'Z' ∨ c = 'z' then some ("Z", rest)
    else if c = '+' ∨ c = '-' then do
      let (hour, rest) ← readPart 0 23 rest
      let (minute, rest) ← readPart 0 59 (← expect ':' rest)
      let sign := if c = '-' ∧ 0 < hour + minute then "-" else "+"
      return (sign ++ padded 2 hour ++ ":" ++ padded 2 minute, rest)
    else some ("", cs)

/-- The time of day that follows a date after `T` or a blank, with its offset. -/
def readDayTime (cs : List Char) : Option (String × List Char) :=
  match cs with
  | c :: rest =>
    if c = 'T' ∨ c = 't' ∨ c = ' ' then do
      let (time, rest) ← readTime rest
      let (offset, rest) ← readOffset rest
      return ("T" ++ time ++ offset, rest)
    else none
  | [] => none

/-- A date, a time, or both. -/
def readMoment (cs : List Char) : Option (String × List Char) :=
  match readDate cs with
  | some (date, rest) =>
    match readDayTime rest with
    | some (time, rest) => some (date ++ time, rest)
    | none => some (date, rest)
  | none => readTime cs

end DepositForm.Toml
