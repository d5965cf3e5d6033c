import DepositForm.Announced.Tree
import DepositForm.Decimal
import DepositForm.Letter.Escape

/-! # What can go wrong in reading

What a reader asked for, what it found instead, and the wording.
-/
namespace DepositForm

/-- What a reader asks for. -/
inductive Wanted where
  | node
  | text
  | bool
  | list
  | record (name : String)
deriving DecidableEq, Repr

def Wanted.wording : Wanted → String
  | .node => "a mapping, a sequence or a scalar value"
  | .text => "a string"
  | .bool => "a boolean"
  | .list => "a sequence"
  | .record name => "struct " ++ name

/-- What a reader finds. -/
inductive Found where
  | token (t : Token)
  | present
  | wrapped
  | sequence
  | mapping

/-- Names a found value; floats are written by `layout`. -/
def Found.wording (layout : Decimal.Layout) : Found → String
  | .token t =>
    match t with
    | .null => "null"
    | .unit => "unit value"
    | .absent => "Option value"
    | .bool b => "boolean " ++ tick (if b then "true" else "false")
    | .signed i => "integer " ++ tick (toString i.toInt)
    | .unsigned u => "integer " ++ tick (toString u.toNat)
    | .wideSigned i => "integer " ++ tick (toString i) ++ " as i128"
    | .wideUnsigned n => "integer " ++ tick (toString n) ++ " as u128"
    | .float x => "floating point " ++ tick (layout.text x)
    | .char c => "character " ++ tick c.toString
    | .text s => "string " ++ Letter.quoted s
    | .bytes _ => "byte array"
  | .present => "Option value"
  | .wrapped => "newtype struct"
  | .sequence => "sequence"
  | .mapping => "map"
where
  tick (s : String) : String := "`" ++ s ++ "`"

/-- Why a value could not be read. Places are those of the announcement. -/
inductive ReadError (ε : Type) where
  /-- The text itself is at fault. -/
  | fault (f : ε)
  | mismatch (found : Found) (wanted : Wanted) (place : Nat)
  /-- Bytes stand for a text but are not one. -/
  | notText
  | missing (field : String) (place : Nat)
  | repeated (field : String) (place : Nat)
  /-- A sequence that stands for a record ends before a field that must be there. -/
  | tooShort (count : Nat) (record : String) (fields : Nat) (place : Nat)
  /-- The value has none of the shapes allowed for `name`. -/
  | noShape (name : String)

/-- The wording of an error that is not the text's own. -/
def ReadError.wording {ε : Type} (layout : Decimal.Layout) (fault : ε → String) :
    ReadError ε → String
  | .fault f => fault f
  | .mismatch found wanted _ =>
    "invalid type: " ++ found.wording layout ++ ", expected " ++ wanted.wording
  | .notText => "invalid value: byte array, expected a string"
  | .missing field _ => "missing field `" ++ field ++ "`"
  | .repeated field _ => "duplicate field `" ++ field ++ "`"
  | .tooShort count record fields _ =>
    "invalid length " ++ toString count ++ ", expected struct " ++ record ++ " with " ++
      toString fields ++ " elements"
  | .noShape name => "data did not match any variant of untagged enum " ++ name

end DepositForm
