import DepositForm.Announced.Error
import DepositForm.Toml.Value

/-! # Reading a TOML text

A text is pairs and headers, line by line. A header closes the table that was open and opens
another one, which joins the others when it is closed in its turn.
-/
namespace DepositForm.Toml

/-- A header: the table it names, or the list of tables that it adds one to. -/
structure Header where
  key : Key
  inList : Bool

/-- What is known of a text so far: the tables that are closed, and the one that is open under the
header, or under none at the front. -/
structure Draft where
  closed : Entries := []
  header : Option Header := none
  entries : Entries := []

namespace Draft

/-- Closes the open table. -/
def close (d : Draft) : Option Entries :=
  match d.header with
  | none => some d.entries
  | some ⟨key, inList⟩ =>
    d.closed.edit false false (fun _ siblings =>
        if inList then
          match siblings.lookup key.name with
          | some (.tables elements) =>
            some (siblings.replace key.name (.tables (elements ++ [d.entries])))
          | _ => none
        else some (siblings ++ [(key.name, .table false .stated d.entries)]))
      key.above .stated

/-- Opens a list's next table. The list takes its place when it is first met. -/
def openNext (key : Key) (closed : Entries) : Option Draft := do
  let closed ← closed.edit false false (fun _ siblings =>
      match siblings.lookup key.name with
      | none => some (siblings ++ [(key.name, .tables [])])
      | some (.tables _) => some siblings
      | some _ => none)
    key.above .stated
  return { closed, header := some ⟨key, true⟩ }

/-- What a table holds that is about to be stated: only one that is implied may be there. -/
def implied? (key : String) (siblings : Entries) : Option Entries :=
  match siblings.lookup key with
  | none => some []
  | some (.table false .implied entries) => some entries
  | some _ => none

/-- The entries of the table that `path` leads to, if it is there. -/
def find (closed : Entries) : List String → Entries
  | [] => closed
  | key :: path =>
    match closed.lookup key with
    | some (.table _ _ entries) => find entries path
    | some (.tables elements) => find (elements.getLast?.getD []) path
    | _ => []

/-- Opens a table. One that is implied keeps what it holds, and moves behind its siblings. -/
def openTable (key : Key) (closed : Entries) : Option Draft := do
  let entries ← implied? key.name (find closed key.above)
  let closed ← closed.edit false false (fun _ siblings => some (siblings.remove key.name))
    key.above .stated
  return { closed, header := some ⟨key, false⟩, entries }

/-- Takes a header. -/
def open? (d : Draft) (header : Header) : Option Draft := do
  let closed ← d.close
  if header.inList then openNext header.key closed else openTable header.key closed

/-- Takes a pair. -/
def add (d : Draft) (key : Key) (item : Item) : Option Draft := do
  let entries ← d.entries.add false key item
  return { d with entries }

end Draft

/-- Reads a header from after its first bracket. -/
def readHeader (cs : List Char) : Option (Header × List Char) :=
  match cs with
  | '[' :: rest => do
    let (key, rest) ← readKey levelLimit rest
    match rest with
    | ']' :: ']' :: rest => return (⟨key, true⟩, rest)
    | _ => none
  | rest => do
    let (key, rest) ← readKey levelLimit rest
    match rest with
    | ']' :: rest => return (⟨key, false⟩, rest)
    | _ => none

/-- Reads the lines of a text. Every pair and header takes a character, so the length of the text is
`fuel` enough. -/
def readStatements : Nat → Draft → List Char → Option Draft
  | 0, _, _ => none
  | fuel + 1, d, cs => do
    match ← skipLines false cs with
    | [] => return d
    | '[' :: rest =>
      let (header, rest) ← readHeader rest
      let d ← d.open? header
      readStatements fuel d (← finishLine? rest)
    | rest =>
      let (key, item, rest) ← readPair (readValue levelLimit) rest
      let d ← d.add key item
      readStatements fuel d (← finishLine? rest)

/-- The entries of a text; a byte order mark in front does not count. -/
def entries? (text : String) : Option Entries := do
  let cs :=
    match text.toList with
    | '\uFEFF' :: rest => rest
    | cs => cs
  let d ← readStatements (cs.length + 1) {} cs
  d.close

/-- Announces a text, if it is TOML. -/
def announce? (text : String) : Option (Announced Empty) :=
  (entries? text).map fun entries => (Item.table false .stated entries).announce

/-- Reads what a text announces. The reader has no error if the text is no TOML. -/
def read {α : Type} (reader : Announced Empty → Except (ReadError Empty) α) (text : String) :
    Except (Option (ReadError Empty)) α :=
  match announce? text with
  | none => .error none
  | some a => (reader a).mapError some

end DepositForm.Toml
