import DepositForm.Announced.Read

/-! # Documents taken as they are

Every value is had, no key means anything, and repeated keys stay.
-/
namespace DepositForm

/-- A value whose text is known to be right. -/
inductive Value where
  | token (t : Token)
  | list (items : List Value)
  | table (entries : List (String × Value))
deriving Inhabited

namespace Announced

variable {ε : Type}

mutual
def toValue : Announced ε → Except (ReadError ε) Value
  | .token t _ => .ok (.token t)
  | .unreadable fault => .error (.fault fault)
  | .present inner => inner.toValue
  | .wrapped inner => inner.toValue
  | .sequence _ limit items => do
    checked limit
    return .list (← items.toValues)
  | .mapping _ limit entries => do
    checked limit
    return .table (← entries.toValues)
  | .broken reading _ => .error (.fault reading)

def Items.toValues : Items ε → Except (ReadError ε) (List Value)
  | .done _ => .ok []
  | .next _ item rest => do
    let v ← item.toValue
    let vs ← rest.toValues
    return v :: vs
  | .broken reading _ _ => .error (.fault reading)

def Entries.toValues : Entries ε → Except (ReadError ε) (List (String × Value))
  | .done _ => .ok []
  | .next _ key _ value rest => do
    let k ← key.toText
    let v ← value.toValue
    let vs ← rest.toValues
    return (k, v) :: vs
  | .broken reading _ _ => .error (.fault reading)
end

end Announced

namespace Value

mutual
/-- Announces a value again. A reader that stops before an item meets a fault: in a value that is
read in two passes nothing may be left over. -/
def announce : Value → Announced Unit
  | token t => .token t 0
  | list items => .sequence 0 none (announceItems items)
  | table entries => .mapping 0 none (announceEntries entries)

def announceItems : List Value → Announced.Items Unit
  | [] => .done 0
  | v :: rest => .next (some ()) v.announce (announceItems rest)

def announceEntries : List (String × Value) → Announced.Entries Unit
  | [] => .done 0
  | (k, v) :: rest => .next (some ()) (.token (.text k) 0) 0 v.announce (announceEntries rest)
end

mutual
/-- The number of values that have no parts. -/
def tokenCount : Value → Nat
  | token _ => 1
  | list items => itemTokens items
  | table entries => entryTokens entries

def itemTokens : List Value → Nat
  | [] => 0
  | v :: rest => v.tokenCount + itemTokens rest

def entryTokens : List (String × Value) → Nat
  | [] => 0
  | (_, v) :: rest => v.tokenCount + entryTokens rest
end

end Value
end DepositForm
