import DepositForm.Storage.Basic

/-! # A disk

What stands at which place, and where one stands oneself. Directories, files and symbolic links
are told apart; a place is told by the names that lead to it from the root. `Disk.storage` is a
disk as `Storage`.
-/
namespace DepositForm

/-- The names that lead to a place from the root. -/
abbrev Place := List String

inductive Content where
  | directory
  | file (bytes : ByteArray)
  /-- A symbolic link, with the path it stands for. -/
  | link (target : Path)

/-- A directory one can stand in. A removed one still knows what it was in. -/
inductive Spot where
  | live (place : Place)
  | gone (above : Place)
deriving DecidableEq, Repr

/-- The directory above. The root is above itself. -/
def Spot.up : Spot → Spot
  | live place => live place.dropLast
  | gone above => live above

structure Disk where
  /-- What there is; the root is a directory and need not be listed. -/
  contents : List (Place × Content) := []
  spot : Spot := .live []

namespace Disk

def content? (d : Disk) (place : Place) : Option Content :=
  if place = [] then some .directory else d.contents.lookup place

/-- Sets what stands at a place. -/
def put (d : Disk) (place : Place) (content : Content) : Disk :=
  { d with contents := (place, content) :: d.contents.filter (·.1 ≠ place) }

/-- Removes a place and everything below it. -/
def removeTree (d : Disk) (place : Place) : Disk :=
  { d with contents := d.contents.filter fun e => !place.isPrefixOf e.1 }

/-! ## Walking a path -/

/-- What a walk is for, which decides about its last name. -/
inductive Purpose where
  /-- To look: links are followed. -/
  | look
  /-- To open a file that may be new: links are followed, and no slash may come last. -/
  | create
  /-- To make a directory: a link in its place is not followed. -/
  | make
deriving DecidableEq, Repr

/-- Where a walk ends. -/
inductive Stop where
  | directory (spot : Spot)
  | file (place : Place)
  | link (place : Place)
  /-- Nothing has the last name; there is no place for it in a removed directory. -/
  | vacant (place : Option Place)

/-- The number of bytes a name may have. -/
def nameLimit : Nat := 255

/-- The number of bytes that a path does not have. -/
def pathLimit : Nat := 4096

/-- The number of links a walk may follow. -/
def linkLimit : Nat := 40

/-- Where a path starts. -/
def startOf (path : Path) (spot : Spot) : Spot := if path.isAbsolute then .live [] else spot

/-- The names a walk goes through. A slash at the end leaves an empty one, which asks for a
directory. -/
def namesOf (path : Path) : List String :=
  let names := path.pieces.filter (· ≠ "")
  if path.text.toList.getLast? = some '/' then names ++ [""] else names

/-- Walks on from `spot`; `follow` goes on after a link. -/
def stepsWith (follow : Spot → List String → Except StorageError Stop) (d : Disk)
    (purpose : Purpose) (spot : Spot) : List String → Except StorageError Stop
  | [] => .ok (.directory spot)
  | name :: rest =>
    if name = "" ∨ name = "." then stepsWith follow d purpose spot rest
    else if name = ".." then stepsWith follow d purpose spot.up rest
    else if purpose = .create ∧ rest = [""] then .error .isDirectory
    else if nameLimit < name.utf8ByteSize then .error .nameTooLong
    else
      match spot with
      | .gone _ => if rest = [] then .ok (.vacant none) else .error .notFound
      | .live above =>
        let place := above ++ [name]
        match d.content? place with
        | none => if rest = [] then .ok (.vacant (some place)) else .error .notFound
        | some .directory => stepsWith follow d purpose (.live place) rest
        | some (.file _) => if rest = [] then .ok (.file place) else .error .notDirectory
        | some (.link target) =>
          if purpose = .make ∧ rest = [] then .ok (.link place)
          else follow (startOf target spot) (namesOf target ++ rest)

/-- Walks on from `spot`, over at most `links` links. -/
def steps (d : Disk) (purpose : Purpose) : Nat → Spot → List String → Except StorageError Stop
  | 0 => stepsWith (fun _ _ => .error .linkLoop) d purpose
  | links + 1 => stepsWith (steps d purpose links) d purpose

/-- Where a path leads. -/
def walk (d : Disk) (purpose : Purpose) (path : Path) : Except StorageError Stop :=
  if path.text.toList.contains '\x00' then .error .zeroCharacter
  else if path.text.isEmpty then .error .notFound
  else if pathLimit ≤ path.text.utf8ByteSize then .error .nameTooLong
  else d.steps purpose linkLimit (startOf path d.spot) (namesOf path)

/-! ## Files and directories -/

def isThere (d : Disk) (path : Path) : Bool :=
  match d.walk .look path with
  | .ok (.directory _) | .ok (.file _) => true
  | _ => false

def isDirectory (d : Disk) (path : Path) : Bool :=
  match d.walk .look path with
  | .ok (.directory _) => true
  | _ => false

/-- The text of the file at a path. -/
def read (d : Disk) (path : Path) : Except StorageError String :=
  match d.walk .look path with
  | .error e => .error e
  | .ok (.directory _) => .error .isDirectory
  | .ok (.file place) =>
    match d.content? place with
    | some (.file bytes) =>
      match String.fromUTF8? bytes with
      | some s => .ok s
      | none => .error .notText
    | _ => .error .notFound
  | .ok (.link _) | .ok (.vacant _) => .error .notFound

/-- Makes the file at a path hold a text. -/
def write (d : Disk) (path : Path) (text : String) : Except StorageError Disk :=
  match d.walk .create path with
  | .error e => .error e
  | .ok (.directory _) => .error .isDirectory
  | .ok (.file place) | .ok (.vacant (some place)) => .ok (d.put place (.file text.toUTF8))
  | .ok (.link _) | .ok (.vacant none) => .error .notFound

/-- Makes a directory in one that is there. -/
def makeDirectory (d : Disk) (path : Path) : Except StorageError Disk :=
  match d.walk .make path with
  | .error e => .error e
  | .ok (.vacant (some place)) => .ok (d.put place .directory)
  | .ok (.vacant none) => .error .notFound
  | .ok _ => .error .alreadyExists

/-- Makes a directory unless there is one, and tells what kept it from being made. -/
def ensureDirectory (d : Disk) (path : Path) : Except StorageError Unit × Disk :=
  match d.makeDirectory path with
  | .ok d => (.ok (), d)
  | .error .alreadyExists => (if d.isDirectory path then .ok () else .error .alreadyExists, d)
  | .error e => (.error e, d)

/-- Makes a directory and those above it that are missing; they are given nearest first. -/
def ensureAll (d : Disk) : List Path → Except StorageError Unit × Disk
  | [] => (.ok (), d)
  | dir :: above =>
    match d.ensureDirectory dir with
    | (.error .notFound, d) =>
      match d.ensureAll above with
      | (.ok (), d) => d.ensureDirectory dir
      | failed => failed
    | done => done

/-- Makes the directories that a path leads through. Those that have been made stay, also if a later
one cannot be made. -/
def ensureParent (d : Disk) (path : Path) : Except StorageError Unit × Disk :=
  match path.parentComponents? with
  | some components => d.ensureAll (Path.ancestors components)
  | none => (.ok (), d)

/-- The path of the directory one stands in. -/
def workplace (d : Disk) : Except StorageError Path :=
  match d.spot with
  | .live place => .ok ⟨"/" ++ "/".intercalate place⟩
  | .gone _ => .error .notFound

/-- A disk as storage. -/
def storage : Storage (StateM Disk) where
  isThere path := return (← get).isThere path
  read path := return (← get).read path
  write path text d :=
    match d.write path text with
    | .ok d => (.ok (), d)
    | .error e => (.error e, d)
  ensureParent path d := d.ensureParent path
  workplace := return (← get).workplace

end Disk
end DepositForm
