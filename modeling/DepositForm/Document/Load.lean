import DepositForm.Announced.Node
import DepositForm.Choice
import DepositForm.Document.Format
import DepositForm.Document.Walk
import DepositForm.Failure
import DepositForm.Storage.Basic

/-! # Documents in files

The extension of the path decides about the format, and only a file with a format is read at
all.
-/
namespace DepositForm

/-- The format of the file at a path, by its extension without regard to the case of ASCII
letters. -/
def Format.ofPath (path : Path) : Except DataError Format :=
  match path.extension?.map Letter.asciiLower with
  | some "json" => .ok .json
  | some "toml" => .ok .toml
  | _ => .error (.unsupported path)

/-- What can be said of a document in short. -/
structure Summary where
  path : Path
  format : Format
  leaves : Nat
  depth : Nat
deriving DecidableEq, Repr

/-- A line per leaf: its value, and its path in front if it is to be shown. -/
def leafLines (showPaths : Bool) (leaves : List (String × Scalar)) : List String :=
  leaves.map fun (path, value) =>
    if showPaths then path ++ " = " ++ value.display else value.display

namespace Storage

variable {m : Type → Type} [Monad m] {α : Type} (wording : Toml.Wording)

/-- Reads the document at a path. -/
def readDocument (s : Storage m) (reader : Reader α) (path : Path) :
    ExceptT DataError m (Format × α) := do
  let format ← Format.ofPath path
  let text ←
    match ← s.read path with
    | .ok text => pure text
    | .error cause => throw (.unreadable "read document" path cause)
  match format.read wording reader text with
  | .ok value => return (format, value)
  | .error message => throw (.unparsable path message)

/-- The tree of the document at a path. -/
def loadDocument (s : Storage m) (path : Path) : ExceptT DataError m Node := do
  let (_, node) ← s.readDocument wording Announced.toNode path
  return node

/-- The leaves of the document at a path, with their own paths in it. -/
def loadLeaves (s : Storage m) (path : Path) (separator : String) :
    ExceptT DataError m (List (String × Scalar)) := do
  let node ← s.loadDocument wording path
  return node.leafPaths separator

def summarize (s : Storage m) (path : Path) : ExceptT DataError m Summary := do
  let (format, node) ← s.readDocument wording Announced.toNode path
  return { path, format, leaves := node.leafCount, depth := node.depth }

/-- The options of the document at a path, in the order they are shown. -/
def loadChoices (s : Storage m) (path : Path) : ExceptT DataError m (List Choice) := do
  let (_, options) ← s.readDocument wording Choice.readAll path
  return Choice.sort options

end Storage
end DepositForm
