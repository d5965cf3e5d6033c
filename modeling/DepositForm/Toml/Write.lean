import DepositForm.Toml.Text

/-! # Writing texts in TOML

A text is written in the plainest form it can have: basic without escapes, literal, over several
lines, and with escapes only where nothing else will do. `textForm` decides.
-/
namespace DepositForm.Toml

/-- The forms a text may have. -/
inductive TextForm where
  | basic
  | literal
  | basicLines
  | literalLines
deriving DecidableEq, Repr

/-- A control character that stands in no text as it is: all but tab and line feed. -/
def isControl (c : Char) : Bool := c ≠ '\t' && c ≠ '\n' && (c.toNat < 0x20 || c.toNat = 0x7F)

/-- Whether `c` comes three times in a row; `run` is the number of times right before. -/
def hasThree (c : Char) (run : Nat) : List Char → Bool
  | [] => false
  | x :: rest => if x = c then run = 2 || hasThree c (run + 1) rest else hasThree c 0 rest

/-- The form a text is written in. -/
def textForm (cs : List Char) : TextForm :=
  let lines := cs.contains '\n'
  let controls := cs.any isControl
  if !lines && !controls && !cs.contains '"' && !cs.contains '\\' then .basic
  else if !lines && !controls && !cs.contains '\'' then .literal
  else if !controls && !cs.contains '\\' && !hasThree '"' 0 cs then .basicLines
  else if !controls && !hasThree '\'' 0 cs then .literalLines
  else if lines then .basicLines
  else .basic

/-- How a character other than a quote stands in a basic text. -/
def escaped (lines : Bool) (c : Char) : List Char :=
  match c with
  | '\\' => ['\\', '\\']
  | '\x08' => ['\\', 'b']
  | '\t' => ['\\', 't']
  | '\n' => if lines then ['\n'] else ['\\', 'n']
  | '\x0c' => ['\\', 'f']
  | '\r' => ['\\', 'r']
  | _ =>
    if isControl c then
      ['\\', 'u', '0', '0', (Nat.digitChar (c.toNat / 16)).toUpper,
        (Nat.digitChar (c.toNat % 16)).toUpper]
    else [c]

/-- A basic text between its quotes. On several lines only every third quote in a row is escaped. -/
def escapeAll (lines : Bool) (quotes : Nat) : List Char → List Char
  | [] => []
  | c :: rest =>
    if c = '"' then
      if lines ∧ quotes < 2 then '"' :: escapeAll lines (quotes + 1) rest
      else '\\' :: '"' :: escapeAll lines 0 rest
    else escaped lines c ++ escapeAll lines 0 rest

/-- A text on several lines begins on a line of its own if it has a line end. -/
def leadingLineEnd (cs : List Char) : List Char := if cs.contains '\n' then ['\n'] else []

/-- Puts a text between three quotes. -/
def betweenThree (quote : Char) (body : List Char) : List Char :=
  quote :: quote :: quote :: body ++ [quote, quote, quote]

def writeText (s : String) : List Char :=
  let cs := s.toList
  match textForm cs with
  | .basic => '"' :: escapeAll false 0 cs ++ ['"']
  | .literal => '\'' :: cs ++ ['\'']
  | .basicLines => betweenThree '"' (leadingLineEnd cs ++ escapeAll true 0 cs)
  | .literalLines => betweenThree '\'' (leadingLineEnd cs ++ cs)

/-- A line that sets a bare key. -/
def writeLine (key : String) (value : List Char) : List Char :=
  key.toList ++ ' ' :: '=' :: ' ' :: value ++ ['\n']

def writeBool (b : Bool) : List Char :=
  if b then ['t', 'r', 'u', 'e'] else ['f', 'a', 'l', 's', 'e']

end DepositForm.Toml
