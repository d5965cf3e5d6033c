import DepositForm.Decimal
import DepositForm.Document.Node

/-! # Writing JSON

One line without blanks, entries in the order they are held. A text escapes its quotes, its
backslashes and the control characters below the blank, and nothing else. A float that is no
number is written as null.
-/
namespace DepositForm.Json

/-- How a character stands between quotes. -/
def escaped (c : Char) : List Char :=
  match c with
  | '"' => ['\\', '"']
  | '\\' => ['\\', '\\']
  | '\x08' => ['\\', 'b']
  | '\t' => ['\\', 't']
  | '\n' => ['\\', 'n']
  | '\x0c' => ['\\', 'f']
  | '\r' => ['\\', 'r']
  | _ =>
    if c.toNat < 0x20 then
      ['\\', 'u', '0', '0', Nat.digitChar (c.toNat / 16), Nat.digitChar (c.toNat % 16)]
    else [c]

def writeText (s : String) : List Char := '"' :: s.toList.flatMap escaped ++ ['"']

/-- A list of values that are written already. -/
def writeList (items : List (List Char)) : List Char :=
  '[' :: [','].intercalate items ++ [']']

/-- One entry, with its value written already. -/
def writeEntry (key : String) (value : List Char) : List Char := writeText key ++ ':' :: value

/-- An object of entries that are written already. -/
def writeObject (entries : List (List Char)) : List Char :=
  '{' :: [','].intercalate entries ++ ['}']

/-- A float; only finite ones have a form. -/
def writeFloat (x : Float) : List Char :=
  if x.isFinite then (Decimal.Layout.exchange.text x).toList else ['n', 'u', 'l', 'l']

def writeScalar : Scalar → List Char
  | .null => ['n', 'u', 'l', 'l']
  | .bool true => ['t', 'r', 'u', 'e']
  | .bool false => ['f', 'a', 'l', 's', 'e']
  | .integer i => (toString i.toInt).toList
  | .unsigned u => (toString u.toNat).toList
  | .float x => writeFloat x
  | .text s => writeText s

mutual
def writeNode : Node → List Char
  | .leaf s => writeScalar s
  | .sequence items => writeList (writeItems items)
  | .mapping entries => writeObject (writeEntries entries)

def writeItems : List Node → List (List Char)
  | [] => []
  | n :: rest => writeNode n :: writeItems rest

def writeEntries : List (String × Node) → List (List Char)
  | [] => []
  | (key, n) :: rest => writeEntry key (writeNode n) :: writeEntries rest
end

/-- The JSON text of a tree. -/
def text (n : Node) : String := String.ofList (writeNode n)

end DepositForm.Json
