import DepositForm.Announced.Record
import DepositForm.Announced.Value
import DepositForm.Document.Format
import DepositForm.Json.Write
import DepositForm.Letter.Case

/-! # Options of a dropdown

Options are read from a list, or from a table that holds the list, and shown in the order of
their texts without regard to case.
-/
namespace DepositForm

/-- One option: what is shown, what it stands for, and a key if it has one. -/
structure Choice where
  key : Option String := none
  text : String
  value : String
deriving DecidableEq, Repr

namespace Choice

/-- The order of texts: that of their lower-case forms, and of the texts themselves where these are
the same. -/
def compareText (a b : String) : Ordering :=
  (compare (Letter.lowerText a) (Letter.lowerText b)).then (compare a b)

/-- The options in the order of their texts. Those with the same text keep their order. -/
def sort (options : List Choice) : List Choice :=
  options.mergeSort fun a b => (compareText a.text b.text).isLE

/-! ## Written and read -/

def write (c : Choice) : List Char :=
  let key :=
    match c.key with
    | some key => [Json.writeEntry "key" (Json.writeText key)]
    | none => []
  Json.writeObject (key ++ [Json.writeEntry "text" (Json.writeText c.text),
    Json.writeEntry "value" (Json.writeText c.value)])

/-- The JSON text of some options. -/
def json (options : List Choice) : String := String.ofList (Json.writeList (options.map write))

def schema : Schema :=
  { name := "SelectOption"
    fields := [
      { name := "key", nullable := true },
      { name := "text", required := true },
      { name := "value", required := true }] }

def ofFields : List (Option FieldValue) → Choice
  | [key, text, value] =>
    { key := key.bind (·.text?)
      text := (text.bind (·.text?)).getD ""
      value := (value.bind (·.text?)).getD "" }
  | _ => { text := "", value := "" }

def read : Reader Choice := fun a => ofFields <$> a.toRecord schema

/-- The options of a value of either shape: a list, or a table with a list under `options`. -/
def ofValue? : Value → Option (List Choice)
  | v@(.list _) => (v.announce.toList read).toOption
  | .table entries =>
    match entries.filter (·.1 = "options") with
    | [(_, v)] => (v.announce.toList read).toOption
    | _ => none
  | .token _ => none

/-- Reads the options of a document. A document of any other shape is refused as a whole. -/
def readAll : Reader (List Choice) := fun a => do
  match ofValue? (← a.toValue) with
  | some options => .ok options
  | none => .error (.noShape "OptionsDocument")

end Choice
end DepositForm
