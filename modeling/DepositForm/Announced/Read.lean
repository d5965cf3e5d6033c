import DepositForm.Announced.Error

/-! # The readers that others are made of

Texts, booleans, lists, and passing over a value. Each reads in document order and stops at the
first thing that is wrong.
-/
namespace DepositForm.Announced

variable {ε α : Type}

/-- The error of a reader that finds no such value here. -/
def mismatch (wanted : Wanted) : Announced ε → ReadError ε
  | .token t ending => .mismatch (.token t) wanted ending
  | .unreadable fault => .fault fault
  | .present _ => .mismatch .present wanted 0
  | .wrapped _ => .mismatch .wrapped wanted 0
  | .sequence opening _ _ => .mismatch .sequence wanted opening
  | .mapping opening _ _ => .mismatch .mapping wanted opening
  | .broken reading _ => .fault reading

/-- Reads a text. A single character and bytes that hold a text will do. -/
def toText : Announced ε → Except (ReadError ε) String
  | .token (.text s) _ => .ok s
  | .token (.char c) _ => .ok c.toString
  | .token (.bytes b) _ =>
    match String.fromUTF8? b with
    | some s => .ok s
    | none => .error .notText
  | other => .error (other.mismatch .text)

def toBool : Announced ε → Except (ReadError ε) Bool
  | .token (.bool b) _ => .ok b
  | other => .error (other.mismatch .bool)

/-- Reads an optional value: null and an absent one give `none`. -/
def toOption (read : Announced ε → Except (ReadError ε) α) :
    Announced ε → Except (ReadError ε) (Option α)
  | .token .null _ | .token .unit _ | .token .absent _ => .ok none
  | .present inner => some <$> read inner
  | other => some <$> read other

/-- Turns a fault, if there is one, into an error. -/
def checked : Option ε → Except (ReadError ε) Unit
  | none => .ok ()
  | some f => .error (.fault f)

/-- Reads every item with `read`. -/
def Items.toList (read : Announced ε → Except (ReadError ε) α) :
    Items ε → Except (ReadError ε) (List α)
  | .done _ => .ok []
  | .next _ item rest => do
    let a ← read item
    let as ← rest.toList read
    return a :: as
  | .broken reading _ _ => .error (.fault reading)

/-- Reads a sequence of values that `read` reads. -/
def toList (read : Announced ε → Except (ReadError ε) α) :
    Announced ε → Except (ReadError ε) (List α)
  | .sequence _ limit items => do
    checked limit
    items.toList read
  | other => .error (other.mismatch .list)

mutual
/-- Passes over a value. Only a text that breaks off or has no value here is noticed. -/
def pass : Announced ε → Except (ReadError ε) Unit
  | .token _ _ => .ok ()
  | .unreadable _ => .ok ()
  | .present inner => inner.pass
  | .wrapped inner => inner.pass
  | .sequence _ _ items => items.pass
  | .mapping _ _ entries => entries.pass
  | .broken _ passing => .error (.fault passing)

def Items.pass : Items ε → Except (ReadError ε) Unit
  | .done _ => .ok ()
  | .next _ item rest => do
    item.pass
    rest.pass
  | .broken _ passing _ => .error (.fault passing)

def Entries.pass : Entries ε → Except (ReadError ε) Unit
  | .done _ => .ok ()
  | .next _ key _ value rest => do
    key.pass
    value.pass
    rest.pass
  | .broken _ passing _ => .error (.fault passing)
end

end DepositForm.Announced
