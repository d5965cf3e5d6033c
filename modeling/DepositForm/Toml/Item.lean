import DepositForm.Announced.Tree

/-! # Tables of a TOML text

What a text says so far. Tables remember how they came to be, because that decides what may
still be added to them: a table that was `stated` is complete but for tables below it, one that
is only `implied` by a header further down may still be stated, and one that comes from a
`dotted` key takes further dotted keys only.
-/
namespace DepositForm.Toml

/-- How a table came to be. -/
inductive Origin where
  | stated
  | implied
  | dotted
deriving DecidableEq, Repr

/-- What stands under a key. -/
inductive Item where
  | token (t : Token)
  | moment (text : String)
  | array (items : List Item)
  /-- A table; `inline` says that it stands between braces. -/
  | table (inline : Bool) (origin : Origin) (entries : List (String × Item))
  /-- A list of tables with headers of their own; there is at least one once it is complete. -/
  | tables (elements : List (List (String × Item)))

/-- The entries of a table, in the order of their first appearance. -/
abbrev Entries := List (String × Item)

/-- A dotted key: the names before the last one, and the last one. -/
structure Key where
  above : List String
  name : String
deriving DecidableEq, Repr

namespace Entries

/-- Sets what is held under a key that is there. -/
def replace (key : String) (item : Item) (entries : Entries) : Entries :=
  entries.map fun e => if e.1 = key then (key, item) else e

def remove (key : String) (entries : Entries) : Entries := entries.filter (·.1 ≠ key)

/-- Edits the table that `path` leads to. Tables that are not there yet are made, and come from
dotted keys if the path does. A dotted path does not lead into a table that was stated; no path
leads into a value, and of a list of tables it takes the last. -/
def edit (inline dotted : Bool) (f : Origin → Entries → Option Entries) :
    List String → Origin → Entries → Option Entries
  | [], origin, entries => f origin entries
  | key :: path, _, entries =>
    match entries.lookup key with
    | none => do
      let origin := if dotted then .dotted else .implied
      let below ← edit inline dotted f path origin []
      return entries ++ [(key, .table inline origin below)]
    | some (.table braces origin below) =>
      if braces ≠ inline ∨ dotted ∧ origin = .stated then none
      else do
        let below ← edit inline dotted f path origin below
        return entries.replace key (.table inline origin below)
    | some (.tables elements) =>
      match elements.getLast? with
      | none => none
      | some last => do
        let last ← edit inline dotted f path .stated last
        return entries.replace key (.tables (elements.dropLast ++ [last]))
    | some _ => none

/-- Adds a key with its value. The table it belongs to must come from dotted keys exactly if the key
is dotted, and must not have the key yet. -/
def add (inline : Bool) (key : Key) (item : Item) (entries : Entries) : Option Entries :=
  edit inline true (fun origin entries =>
      if (origin = .dotted ↔ key.above = []) ∨ (entries.lookup key.name).isSome then none
      else some (entries ++ [(key.name, item)]))
    key.above .stated entries

end Entries

namespace Item

mutual
/-- Announces an item; a date is a mapping under a key of its own. -/
def announce : Item → Announced Empty
  | token t => .token t 0
  | moment text => .ofEntries [(.ofText dateKey, .ofText text)]
  | array items => .sequence 0 none (announceItems items)
  | table _ _ entries => .mapping 0 none (announceEntries entries)
  | tables elements => .sequence 0 none (announceTables elements)

def announceItems : List Item → Announced.Items Empty
  | [] => .done 0
  | item :: rest => .next none item.announce (announceItems rest)

def announceEntries : List (String × Item) → Announced.Entries Empty
  | [] => .done 0
  | (key, item) :: rest => .next none (.ofText key) 0 item.announce (announceEntries rest)

def announceTables : List (List (String × Item)) → Announced.Items Empty
  | [] => .done 0
  | entries :: rest => .next none (.mapping 0 none (announceEntries entries)) (announceTables rest)
end

end Item
end DepositForm.Toml
