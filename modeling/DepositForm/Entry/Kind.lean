import DepositForm.Letter.Case

/-! # Kinds of entries

A form repeats two kinds of entries; each has fields, and a field of an entry has a path.
-/
namespace DepositForm

/-- A field of an entry. -/
structure Field where
  name : String
  label : String
  multiline : Bool := false
deriving DecidableEq, Repr

/-- What can be asked of a form's entries that they do not have. -/
inductive FormError where
  | indexOutOfRange (index length : Nat)
  | unknownKind (name : String)
deriving DecidableEq, Repr

def FormError.message : FormError → String
  | .indexOutOfRange index length =>
    "index " ++ toString index ++ " out of range for list of length " ++ toString length
  | .unknownKind name =>
    "unknown entry kind: " ++ name ++ " (expected publication or project)"

inductive EntryKind where
  | publication
  | project
deriving DecidableEq, Repr

namespace EntryKind

def name : EntryKind → String
  | publication => "publication"
  | project => "project"

/-- The fields of a kind, in order. -/
def fields : EntryKind → List Field
  | publication => [
      { name := "title", label := "Title" },
      { name := "doi", label := "DOI" },
      { name := "keywords", label := "Keywords" },
      { name := "summary", label := "Summary", multiline := true }]
  | project => [
      { name := "title", label := "Project title" },
      { name := "institution", label := "Funding institution" },
      { name := "role", label := "Your role in the project" },
      { name := "abstract", label := "Abstract in English", multiline := true }]

/-- What the button says that adds an entry. -/
def buttonLabel : EntryKind → String
  | publication => "Add Relevant Publications"
  | project => "Most Significant Projects"

def field? (kind : EntryKind) (name : String) : Option Field :=
  kind.fields.find? (·.name = name)

/-- The kind called `name`, in singular or plural, without regard to the case of ASCII letters. -/
def ofName (name : String) : Except FormError EntryKind :=
  let lowered := Letter.asciiLower name
  if lowered = "publication" ∨ lowered = "publications" then .ok publication
  else if lowered = "project" ∨ lowered = "projects" then .ok project
  else .error (.unknownKind name)

end EntryKind

/-- The path of a field of the entry at `index` in the group under `base`. -/
def fieldPath (base : String) (index : Nat) (name : String) : String :=
  if base.isEmpty then toString index ++ "." ++ name
  else base ++ "." ++ toString index ++ "." ++ name

/-- A line per field of an entry: its path, its label, and a mark if it takes several lines. -/
def fieldLines (kind : EntryKind) (base : String) (index : Nat) : List String :=
  kind.fields.map fun field =>
    fieldPath base index field.name ++ "  " ++ field.label ++
      if field.multiline then " (multi-line)" else ""

end DepositForm
