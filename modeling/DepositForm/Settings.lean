import DepositForm.Announced.Record
import DepositForm.Document.Format
import DepositForm.Failure
import DepositForm.Label
import DepositForm.Letter.Case
import DepositForm.Storage.Basic
import DepositForm.Toml.Write

/-! # Settings and their layers

A layer gives some fields and leaves the others as they were. The layers lie over the defaults in
this order: the global file, the local file, the environment. A file that is not there is no layer;
one that is there must be readable.
-/
namespace DepositForm

/-! ## Settings and layers -/

structure Settings where
  /-- The category whose label is shown when none is asked for. -/
  category : String := Category.standard.key
  /-- What stands between the segments of a leaf's path. -/
  pathSeparator : String := "."
  /-- Whether leaves are shown with their paths. -/
  showPaths : Bool := false
deriving DecidableEq, Repr, Inhabited

/-- A layer of settings: the fields that it gives. -/
structure Layer where
  category : Option String := none
  pathSeparator : Option String := none
  showPaths : Option Bool := none
deriving DecidableEq, Repr, Inhabited

namespace Settings

/-- The settings under a layer: each field that the layer gives is its. -/
def under (s : Settings) (layer : Layer) : Settings :=
  { category := layer.category.getD s.category
    pathSeparator := layer.pathSeparator.getD s.pathSeparator
    showPaths := layer.showPaths.getD s.showPaths }

/-- The fields of settings as a record. -/
def fields (nullable : Bool) : List RecordField := [
  { name := "category", nullable },
  { name := "path_separator", nullable },
  { name := "show_paths", kind := .bool, nullable }]

/-- Reads settings; fields that are not given have their defaults. -/
def read : Reader Settings := fun a => do
  match ← a.toRecord ⟨"Settings", fields false⟩ with
  | [category, separator, shown] =>
    return {
      category := (category.bind (·.text?)).getD ({} : Settings).category
      pathSeparator := (separator.bind (·.text?)).getD ({} : Settings).pathSeparator
      showPaths := (shown.bind (·.bool?)).getD ({} : Settings).showPaths }
  | _ => return {}

/-- The settings as a TOML text. -/
def toml (s : Settings) : String :=
  String.ofList (Toml.writeLine "category" (Toml.writeText s.category) ++
    Toml.writeLine "path_separator" (Toml.writeText s.pathSeparator) ++
    Toml.writeLine "show_paths" (Toml.writeBool s.showPaths))

/-- What a new settings file says: every field, commented out. -/
def template : String :=
"# rdm-deposit configuration
#
# Locations (by precedence, lowest to highest):
#   Global: ~/.config/rdm-deposit/rdm-deposit.toml
#   Local:  <dir>/.rdm-deposit.toml
#   Env:    RDMDEPOSIT_* environment variables

# Category key for labels when none is given (\"person\" or \"community\")
# category = \"community\"

# Separator between segments of a leaf path
# path_separator = \".\"

# Print leaf paths alongside values
# show_paths = false
"

end Settings

namespace Layer

/-- Reads a layer; null stands for a field that is not given. -/
def read : Reader Layer := fun a => do
  match ← a.toRecord ⟨"RawSettings", Settings.fields true⟩ with
  | [category, separator, shown] =>
    return {
      category := category.bind (·.text?)
      pathSeparator := separator.bind (·.text?)
      showPaths := shown.bind (·.bool?) }
  | _ => return {}

end Layer

/-! ## The environment -/

structure Environment where
  bindings : List (String × String) := []
  /-- The home directory that the system knows, for when no variable tells it. -/
  accountHome : Option Path := none

namespace Environment

def get? (e : Environment) (name : String) : Option String := e.bindings.lookup name

/-- The variable that an entry of a block sets. A name has at least one character, which may be an
equals sign; the next equals sign ends it. -/
def binding? (entry : List UInt8) : Option (String × String) := do
  match (← String.fromUTF8? ⟨entry.toArray⟩).toList with
  | [] => none
  | first :: rest =>
    match rest.dropWhile (· ≠ '=') with
    | [] => none
    | _ :: value =>
      return (String.ofList (first :: rest.takeWhile (· ≠ '=')), String.ofList value)

/-- The entries of a block, each of which a zero byte ends. -/
def entries : List UInt8 → List (List UInt8)
  | [] => []
  | byte :: rest =>
    if byte = 0 then [] :: entries rest
    else
      match entries rest with
      | [] => [[byte]]
      | entry :: more => (byte :: entry) :: more

/-- The environment that a system hands to a program as a block of bytes. Entries that set no
variable, or are no text, are passed over. -/
def ofBlock (block : List UInt8) : Environment where
  bindings := (entries block).filterMap binding?

/-- The variables that set settings begin with this, in any case. -/
def settingsFront : String := "rdmdeposit__"

/-- The value of the variable that sets `field`. Where several names differ in case only, the last
variable counts. -/
def settingText? (e : Environment) (field : String) : Option String :=
  (e.bindings.findRev? fun v => Letter.lowerText v.1 = settingsFront ++ field).map (·.2)

/-- The truth value of a word, in any case; other words have none. -/
def truth? (word : String) : Option Bool :=
  let word := Letter.lowerText word
  if ["1", "true", "on", "yes"].contains word then some true
  else if ["0", "false", "off", "no"].contains word then some false
  else none

/-- The settings that variables give. -/
def layer (e : Environment) : Layer :=
  { category := e.settingText? "category"
    pathSeparator := e.settingText? "path_separator"
    showPaths := (e.settingText? "show_paths").bind truth? }

/-! ### Settings files -/

def home? (e : Environment) : Option Path :=
  match e.get? "HOME" with
  | some home => if home.isEmpty then e.accountHome else some ⟨home⟩
  | none => e.accountHome

/-- The directory for the settings of all programs. -/
def configHome? (e : Environment) : Option Path := do
  let home ← e.home?
  match e.get? "XDG_CONFIG_HOME" with
  | some dir => if (Path.mk dir).isAbsolute then return ⟨dir⟩ else return home.join ".config"
  | none => return home.join ".config"

/-- The directory for the settings that hold everywhere. -/
def globalDirectory? (e : Environment) : Option Path := e.configHome?.map (·.join "rdm-deposit")

/-- The file with the settings that hold everywhere. -/
def globalFile? (e : Environment) : Option Path :=
  e.globalDirectory?.map (·.join "rdm-deposit.toml")

end Environment

/-- The file with the settings that hold for a directory. -/
def localFile (directory : Path) : Path := directory.join ".rdm-deposit.toml"

/-! ## Loading -/

namespace Storage

variable {m : Type → Type} [Monad m] (wording : Toml.Wording)

/-- The layer in the file at a path. -/
def readLayer (s : Storage m) (path : Path) : ExceptT DataError m Layer := do
  match ← s.read path with
  | .error cause => throw (.settings ("read " ++ path.text ++ ": " ++ cause.message))
  | .ok text =>
    match Format.readToml wording Layer.read text with
    | .error message => throw (.settings ("parse " ++ path.text ++ ": " ++ message))
    | .ok layer => return layer

/-- The settings under the file at a path, if it is there. -/
def mergeFile (s : Storage m) (settings : Settings) (path : Path) :
    ExceptT DataError m Settings := do
  if ← s.isThere path then
    return settings.under (← s.readLayer wording path)
  else
    return settings

/-- The settings under a file that may not be known. -/
def mergeFile? (s : Storage m) (settings : Settings) (path : Option Path) :
    ExceptT DataError m Settings :=
  match path with
  | some path => s.mergeFile wording settings path
  | none => pure settings

/-- The settings that hold in a directory, or everywhere if none is given. -/
def loadSettings (s : Storage m) (e : Environment) (directory : Option Path) :
    ExceptT DataError m Settings := do
  let settings ← s.mergeFile? wording {} e.globalFile?
  let settings ← s.mergeFile? wording settings (directory.map localFile)
  return settings.under e.layer

end Storage
end DepositForm
