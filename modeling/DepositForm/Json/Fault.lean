/-! # Faults of a JSON text

What can be wrong with a text, where, and the wording. Places count bytes from the start of the
text; a message tells them as a line, counted from 1, and the number of bytes of that line.
-/
namespace DepositForm.Json

/-- A way for a text not to be JSON, or to ask too much. -/
inductive Slip where
  | endInValue
  | endInList
  | endInObject
  | endInText
  | noValue
  | noWord
  | noColon
  | noListEnd
  | noObjectEnd
  | keyNotText
  | trailingComma
  | trailingCharacters
  | badNumber
  | numberRange
  | badEscape
  | controlCharacter
  | loneSurrogate
  | brokenSurrogate
  | tooDeep
deriving DecidableEq, Repr

def Slip.wording : Slip → String
  | .endInValue => "EOF while parsing a value"
  | .endInList => "EOF while parsing a list"
  | .endInObject => "EOF while parsing an object"
  | .endInText => "EOF while parsing a string"
  | .noValue => "expected value"
  | .noWord => "expected ident"
  | .noColon => "expected `:`"
  | .noListEnd => "expected `,` or `]`"
  | .noObjectEnd => "expected `,` or `\x7d`"
  | .keyNotText => "key must be a string"
  | .trailingComma => "trailing comma"
  | .trailingCharacters => "trailing characters"
  | .badNumber => "invalid number"
  | .numberRange => "number out of range"
  | .badEscape => "invalid escape"
  | .controlCharacter => "control character (\\u0000-\\u001F) found while parsing a string"
  | .loneSurrogate => "lone leading surrogate in hex escape"
  | .brokenSurrogate => "unexpected end of hex escape"
  | .tooDeep => "recursion limit exceeded"

structure Fault where
  slip : Slip
  place : Nat
deriving DecidableEq, Repr

/-- Line and column of the place `bytes` bytes further on. -/
def lineColumnFrom (line column : Nat) : List Char → Nat → Nat × Nat
  | [], _ => (line, column)
  | c :: rest, bytes =>
    if bytes = 0 then (line, column)
    else if c = '\n' then lineColumnFrom (line + 1) 0 rest (bytes - 1)
    else if bytes < c.utf8Size then (line, column + bytes)
    else lineColumnFrom line (column + c.utf8Size) rest (bytes - c.utf8Size)

/-- How a message tells a place of the text. -/
def placeWording (text : String) (place : Nat) : String :=
  let (line, column) := lineColumnFrom 1 0 text.toList place
  " at line " ++ toString line ++ " column " ++ toString column

/-- What is left of a text, and the place where it begins. -/
structure Cursor where
  rest : List Char
  place : Nat
deriving DecidableEq, Repr

namespace Cursor

def ofText (text : String) : Cursor := ⟨text.toList, 0⟩

/-- The place of a fault that is seen in the next character before it is taken. -/
def seen (c : Cursor) : Nat := if c.rest.isEmpty then c.place else c.place + 1

/-- A fault seen in the next character. -/
def fault (c : Cursor) (slip : Slip) : Fault := ⟨slip, c.seen⟩

/-- Passes over blanks. -/
def skipBlanks (c : Cursor) : Cursor :=
  let blanks := c.rest.takeWhile isBlank
  ⟨c.rest.dropWhile isBlank, c.place + blanks.length⟩
where
  isBlank (c : Char) : Bool := c = ' ' || c = '\t' || c = '\n' || c = '\r'

/-- The characters of a class that come next, and what follows them. -/
def span (c : Cursor) (p : Char → Bool) : List Char × Cursor :=
  let taken := c.rest.takeWhile p
  (taken, ⟨c.rest.dropWhile p, c.place + taken.length⟩)

end Cursor
end DepositForm.Json
