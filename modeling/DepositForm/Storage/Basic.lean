/-! # Paths and storage

A path is kept as it is written, and taken apart at its slashes when it is used. `Storage` is what
the program asks of the files around it, whatever holds them: a disk or the system.
-/
namespace DepositForm

/-! ## Paths -/

/-- A path as it is written. -/
structure Path where
  text : String
deriving DecidableEq, Repr, Inhabited

namespace Path

/-- What a path is made of. Empty parts and dots do not count, but for a dot right at the front. -/
inductive Component where
  | root
  | here
  | up
  | name (s : String)
deriving DecidableEq, Repr

/-- The pieces between the slashes; there is always one more than there are slashes. -/
def split : List Char → List (List Char)
  | [] => [[]]
  | c :: rest =>
    if c = '/' then [] :: split rest
    else
      match split rest with
      | [] => [[c]]
      | piece :: pieces => (c :: piece) :: pieces

def pieces (p : Path) : List String := (split p.text.toList).map String.ofList

def isAbsolute (p : Path) : Bool := p.text.toList.head? = some '/'

/-- The component that a piece stands for after the front of a path. -/
def component? (piece : String) : Option Component :=
  if piece = "" ∨ piece = "." then none
  else if piece = ".." then some .up
  else some (.name piece)

def components (p : Path) : List Component :=
  let front : List Component :=
    if p.isAbsolute then [.root]
    else if p.pieces.head? = some "." then [.here]
    else []
  front ++ p.pieces.filterMap component?

/-- The last component, if it is a name. -/
def fileName? (p : Path) : Option String :=
  match p.components.getLast? with
  | some (.name s) => some s
  | _ => none

/-- What stands before and after the last dot, if there is one. -/
def splitAtLastDot (cs : List Char) : Option (List Char × List Char) :=
  let after := (cs.reverse.takeWhile (· ≠ '.')).reverse
  match cs.reverse.dropWhile (· ≠ '.') with
  | [] => none
  | _ :: before => some (before.reverse, after)

/-- What follows the last dot of the name, unless the name begins with it. -/
def extension? (p : Path) : Option String := do
  let name ← p.fileName?
  match splitAtLastDot name.toList with
  | some (_ :: _, after) => some (String.ofList after)
  | _ => none

/-- The path `rest` below `base`; one that begins at the root stays as it is. -/
def join (base : Path) (rest : String) : Path :=
  if rest.toList.head? = some '/' then ⟨rest⟩
  else if base.text.isEmpty ∨ base.text.toList.getLast? = some '/' then ⟨base.text ++ rest⟩
  else ⟨base.text ++ "/" ++ rest⟩

def Component.text : Component → String
  | root => ""
  | here => "."
  | up => ".."
  | name s => s

/-- The path of some components. -/
def ofComponents (components : List Component) : Path :=
  if components = [.root] then ⟨"/"⟩ else ⟨"/".intercalate (components.map Component.text)⟩

/-- The components of the directory a path is in; the root and the empty path are in none. -/
def parentComponents? (p : Path) : Option (List Component) :=
  match p.components.getLast? with
  | none | some .root => none
  | some _ => some p.components.dropLast

/-- The directories that a path leads through, from the nearest to the farthest: the path itself
and those above it, without the root. -/
def ancestors (components : List Component) : List Path :=
  (List.range components.length).reverse.filterMap fun n =>
    let front := components.take (n + 1)
    if front = [.root] then none else some (ofComponents front)

end Path

/-! ## Storage -/

/-- The causes that a file cannot be read, written or made. -/
inductive StorageError where
  | notFound
  | alreadyExists
  | notDirectory
  | isDirectory
  | nameTooLong
  | linkLoop
  /-- What the file holds is no text. -/
  | notText
  /-- The path has a character that no name may have. -/
  | zeroCharacter
  /-- Anything else, in words. -/
  | other (message : String)
deriving DecidableEq, Repr

def StorageError.message : StorageError → String
  | notFound => "No such file or directory (os error 2)"
  | alreadyExists => "File exists (os error 17)"
  | notDirectory => "Not a directory (os error 20)"
  | isDirectory => "Is a directory (os error 21)"
  | nameTooLong => "File name too long (os error 36)"
  | linkLoop => "Too many levels of symbolic links (os error 40)"
  | notText => "stream did not contain valid UTF-8"
  | zeroCharacter => "file name contained an unexpected NUL byte"
  | other message => message

structure Storage (m : Type → Type) where
  /-- Whether there is anything at a path, links followed. -/
  isThere : Path → m Bool
  /-- The text of a file. -/
  read : Path → m (Except StorageError String)
  /-- Makes a file hold a text, whether it was there or not. -/
  write : Path → String → m (Except StorageError Unit)
  /-- Makes the directories that a path leads through. -/
  ensureParent : Path → m (Except StorageError Unit)
  /-- The directory that paths start from, unless it has been removed. -/
  workplace : m (Except StorageError Path)

end DepositForm
