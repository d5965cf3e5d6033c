import DepositForm.Announced.Read
import DepositForm.Document.Node

/-! # Reading a tree

Integers of every width up to 64 bits are taken by value. A key that is repeated keeps its first
place and takes the last value. A mapping whose first key is the one that announces a date is a
leaf that holds the date's text, and what follows it is not read.
-/
namespace DepositForm

/-- The leaf for an integer that is not negative. -/
def Scalar.ofUnsigned (u : UInt64) : Scalar :=
  if u.toNat < signedLimit then .integer (Int64.ofNat u.toNat) else .unsigned u

/-- The entries with `node` under `key`: in place of the first entry with that key, or else at the
end. -/
def Node.put (key : String) (node : Node) : List (String × Node) → List (String × Node)
  | [] => [(key, node)]
  | (k, n) :: rest => if k = key then (k, node) :: rest else (k, n) :: Node.put key node rest

namespace Announced

variable {ε : Type}

/-- The leaf for a token; bytes and wide integers are none. -/
def leaf? : Token → Option Scalar
  | .null | .unit | .absent => some .null
  | .bool b => some (.bool b)
  | .signed i => some (.integer i)
  | .unsigned u => some (.ofUnsigned u)
  | .float x => some (.float x)
  | .char c => some (.text c.toString)
  | .text s => some (.text s)
  | .wideSigned _ | .wideUnsigned _ | .bytes _ => none

mutual
def toNode : Announced ε → Except (ReadError ε) Node
  | .token t ending =>
    match leaf? t with
    | some s => .ok (.leaf s)
    | none => .error (.mismatch (.token t) .node ending)
  | .unreadable fault => .error (.fault fault)
  | .present inner => inner.toNode
  | .wrapped _ => .error (.mismatch .wrapped .node 0)
  | .sequence _ limit items => do
    checked limit
    return .sequence (← items.toNodes)
  | .mapping _ limit entries => do
    checked limit
    match entries with
    | .next _ key _ value rest =>
      let k ← key.toText
      if k = dateKey then
        let s ← value.toText
        checked rest.unread?
        return .leaf (.text s)
      else
        let n ← value.toNode
        return .mapping (← rest.toNodes [(k, n)])
    | .done _ => return .mapping []
    | .broken reading _ _ => .error (.fault reading)
  | .broken reading _ => .error (.fault reading)

def Items.toNodes : Items ε → Except (ReadError ε) (List Node)
  | .done _ => .ok []
  | .next _ item rest => do
    let n ← item.toNode
    let ns ← rest.toNodes
    return n :: ns
  | .broken reading _ _ => .error (.fault reading)

/-- Adds the entries to those read so far. -/
def Entries.toNodes (soFar : List (String × Node)) :
    Entries ε → Except (ReadError ε) (List (String × Node))
  | .done _ => .ok soFar
  | .next _ key _ value rest => do
    let k ← key.toText
    let n ← value.toNode
    rest.toNodes (Node.put k n soFar)
  | .broken reading _ _ => .error (.fault reading)
end

end Announced
end DepositForm
