import DepositForm.Announced.Read

/-! # Reading a record

A record is a mapping from field names, or a sequence in field order. Entries under other names
are passed over, a field given twice is an error, and so is one that must be there and is not.
-/
namespace DepositForm

/-- What a field holds. -/
inductive FieldKind where
  | text
  | bool
deriving DecidableEq, Repr

/-- A field of a record. -/
structure RecordField where
  name : String
  kind : FieldKind := .text
  /-- Null stands for a field that is not given. -/
  nullable : Bool := false
  /-- The field must be given. -/
  required : Bool := false
deriving DecidableEq, Repr

structure Schema where
  name : String
  fields : List RecordField
deriving DecidableEq, Repr

/-- A value given for a field. -/
inductive FieldValue where
  | text (s : String)
  | bool (b : Bool)
deriving DecidableEq, Repr, Inhabited

def FieldValue.text? : FieldValue → Option String
  | text s => some s
  | bool _ => none

def FieldValue.bool? : FieldValue → Option Bool
  | text _ => none
  | bool b => some b

namespace Announced

variable {ε : Type}

/-- Reads what a field of this kind holds. -/
def toKind (kind : FieldKind) (a : Announced ε) : Except (ReadError ε) FieldValue :=
  match kind with
  | .text => .text <$> a.toText
  | .bool => .bool <$> a.toBool

/-- Reads the value of a field; `none` stands for null where that is allowed. -/
def toFieldValue (field : RecordField) (a : Announced ε) :
    Except (ReadError ε) (Option FieldValue) :=
  if field.nullable then a.toOption (toKind field.kind) else some <$> a.toKind field.kind

/-- The fields with what has been given for each: nothing yet, or a value that may be null. -/
abbrev Slots := List (RecordField × Option (Option FieldValue))

/-- The values in field order. A field that was not given is an error if it must be there. -/
def Slots.finish (closing : Nat) : Slots → Except (ReadError ε) (List (Option FieldValue))
  | [] => .ok []
  | (field, given) :: rest => do
    let v ← match given with
      | some v => .ok v
      | none => if field.required then .error (.missing field.name closing) else .ok none
    let vs ← Slots.finish closing rest
    return v :: vs

/-- The field called `name` and what has been given for it. -/
def Slots.find? (name : String) (slots : Slots) :
    Option (RecordField × Option (Option FieldValue)) :=
  List.find? (fun slot => slot.1.name = name) slots

/-- Sets what is given for the field called `name`. -/
def Slots.set (name : String) (v : Option FieldValue) (slots : Slots) : Slots :=
  List.map (fun slot => if slot.1.name = name then (slot.1, some v) else slot) slots

def Entries.toFields (slots : Slots) : Entries ε → Except (ReadError ε) (List (Option FieldValue))
  | .done closing => slots.finish closing
  | .next _ key afterKey value rest => do
    let name ← key.toText
    match slots.find? name with
    | none =>
      value.pass
      rest.toFields slots
    | some (field, some _) => .error (.repeated field.name afterKey)
    | some (field, none) =>
      let v ← value.toFieldValue field
      rest.toFields (slots.set name v)
  | .broken reading _ _ => .error (.fault reading)

/-- Reads the fields in order. `count` fields came before; at the end of the items those that need
not be there may be left out. -/
def Items.toFields (schema : Schema) (count : Nat) :
    List RecordField → Items ε → Except (ReadError ε) (List (Option FieldValue))
  | [], items => do
    checked items.unread?
    return []
  | field :: fields, .next _ item rest => do
    let v ← item.toFieldValue field
    let vs ← rest.toFields schema (count + 1) fields
    return v :: vs
  | field :: fields, .done closing =>
    if field.required then
      .error (.tooShort count schema.name schema.fields.length closing)
    else do
      let vs ← Items.toFields schema (count + 1) fields (.done closing)
      return none :: vs
  | _ :: _, .broken reading _ _ => .error (.fault reading)

/-- Reads a record: the value of each field in order, `none` for one that is not given. -/
def toRecord (schema : Schema) : Announced ε → Except (ReadError ε) (List (Option FieldValue))
  | .sequence _ limit items => do
    checked limit
    items.toFields schema 0 schema.fields
  | .mapping _ limit entries => do
    checked limit
    entries.toFields (schema.fields.map fun field => (field, none))
  | other => .error (other.mismatch (.record schema.name))

end Announced
end DepositForm
