import DepositForm.Announced.Read
import DepositForm.Announced.Record
import DepositForm.Document.Format
import DepositForm.Entry.Kind
import DepositForm.Json.Write

/-! # Entries of a form

An entry has a text for each field of its kind, empty until it is filled in. A group holds entries
of one type, which can be added, taken out and looked at by their place.
-/
namespace DepositForm

/-! ## Entries -/

structure Publication where
  title : String := ""
  doi : String := ""
  keywords : String := ""
  summary : String := ""
deriving DecidableEq, Repr, Inhabited

structure Project where
  title : String := ""
  institution : String := ""
  role : String := ""
  abstract : String := ""
deriving DecidableEq, Repr, Inhabited

/-- A type of entries: their kind, and their texts. As a record, an entry has a name for each text;
these are the names of the fields of its kind. -/
class Entry (α : Type) where
  kind : EntryKind
  /-- What a reader calls a record of this type. -/
  recordName : String
  names : List String
  texts : α → List String
  /-- The entry with these texts; those that are left out are empty. -/
  ofTexts : List String → α
  names_eq : names = kind.fields.map Field.name
  length_texts (a : α) : (texts a).length = names.length
  ofTexts_texts (a : α) : ofTexts (texts a) = a

instance : Entry Publication where
  kind := .publication
  recordName := "PublicationEntry"
  names := ["title", "doi", "keywords", "summary"]
  texts e := [e.title, e.doi, e.keywords, e.summary]
  ofTexts l := ⟨l.getD 0 "", l.getD 1 "", l.getD 2 "", l.getD 3 ""⟩
  names_eq := rfl
  length_texts _ := rfl
  ofTexts_texts _ := rfl

instance : Entry Project where
  kind := .project
  recordName := "ProjectEntry"
  names := ["title", "institution", "role", "abstract"]
  texts e := [e.title, e.institution, e.role, e.abstract]
  ofTexts l := ⟨l.getD 0 "", l.getD 1 "", l.getD 2 "", l.getD 3 ""⟩
  names_eq := rfl
  length_texts _ := rfl
  ofTexts_texts _ := rfl

namespace Entry

variable (α : Type) [Entry α]

/-- An entry that has not been filled in. -/
def blank : α := ofTexts []

/-- As a record, an entry has a text for each name, and any may be left out. -/
def schema : Schema :=
  ⟨recordName α, (names α).map fun name => { name }⟩

variable {α}

def read : Reader α := fun a =>
  (fun values => ofTexts (values.map fun v => (v.bind FieldValue.text?).getD "")) <$>
    a.toRecord (schema α)

/-- The texts of an entry with their names. -/
def members (e : α) : List (String × String) := (names α).zip (texts e)

def write (e : α) : List Char :=
  Json.writeObject ((members e).map fun (name, text) => Json.writeEntry name (Json.writeText text))

/-- The JSON text of an entry. -/
def json (e : α) : String := String.ofList (write e)

end Entry

/-! ## Groups of entries -/

/-- The entries of a group, in order. -/
structure Group (α : Type) where
  entries : List α
deriving DecidableEq, Repr

namespace Group

variable {α : Type}

def empty : Group α := ⟨[]⟩

def length (g : Group α) : Nat := g.entries.length

def isEmpty (g : Group α) : Bool := g.entries.isEmpty

def get? (g : Group α) (index : Nat) : Option α := g.entries[index]?

/-- Adds an entry at the end, and tells its place. -/
def push (g : Group α) (entry : α) : Nat × Group α := (g.length, ⟨g.entries ++ [entry]⟩)

/-- Takes out the entry at `index`; those behind it move up. -/
def remove (g : Group α) (index : Nat) : Except FormError (α × Group α) :=
  match g.entries[index]? with
  | some entry => .ok (entry, ⟨g.entries.eraseIdx index⟩)
  | none => .error (.indexOutOfRange index g.length)

variable [Entry α]

/-- Adds an entry that has not been filled in. -/
def pushBlank (g : Group α) : Nat × Group α := g.push (Entry.blank α)

/-- The paths of all fields of all entries, for a group under `base`. -/
def fieldPaths (g : Group α) (base : String) : List String :=
  (List.range g.length).flatMap fun index =>
    (Entry.kind α).fields.map fun field => fieldPath base index field.name

def read : Reader (Group α) := fun a => Group.mk <$> a.toList Entry.read

def write (g : Group α) : List Char := Json.writeList (g.entries.map Entry.write)

/-- The JSON text of a group. -/
def json (g : Group α) : String := String.ofList g.write

end Group

end DepositForm
