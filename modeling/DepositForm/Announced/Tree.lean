/-! # Documents as they are announced

A document as its format hands it over, before anyone has said what it should mean. Every value
announces what it is: a format with few kinds uses few of the constructors.

A text may be wrong in a place that not every reader looks at, so faults stand in the tree where
they are met and speak up only when a reader comes there. `ε` is the type of faults; a format
that checks everything beforehand announces over `Empty`. Places count from the start of the
text and matter only to formats that tell them.
-/
namespace DepositForm

/-- Signed 64-bit words are the integers below this number and not below its negative. -/
def signedLimit : Nat := 0x8000000000000000

/-- A value without parts, as announced. -/
inductive Token where
  | null
  | unit
  | absent
  | bool (b : Bool)
  | signed (i : Int64)
  | unsigned (u : UInt64)
  | wideSigned (i : Int)
  | wideUnsigned (n : Nat)
  | float (x : Float)
  | char (c : Char)
  | text (s : String)
  | bytes (b : ByteArray)
deriving Inhabited

mutual
/-- An announced value. -/
inductive Announced (ε : Type) where
  /-- A value without parts; `ending` is the place after it. -/
  | token (t : Token) (ending : Nat)
  /-- A value that cannot be had, although it can be passed over. -/
  | unreadable (fault : ε)
  /-- An optional value that is there. -/
  | present (inner : Announced ε)
  /-- A value in a named wrapping. -/
  | wrapped (inner : Announced ε)
  /-- A list of values; `opening` is the place before it, `limit` keeps it from being entered. -/
  | sequence (opening : Nat) (limit : Option ε) (items : Announced.Items ε)
  | mapping (opening : Nat) (limit : Option ε) (entries : Announced.Entries ε)
  /-- No value: what a reader meets here, and what one meets that only passes over. -/
  | broken (reading passing : ε)

/-- The items of a sequence from some point on. -/
inductive Announced.Items (ε : Type) where
  /-- The end, with the place after it. -/
  | done (closing : Nat)
  /-- One more item; `unread` is met by a reader that stops before it. -/
  | next (unread : Option ε) (item : Announced ε) (rest : Announced.Items ε)
  | broken (reading passing unread : ε)

/-- The entries of a mapping from some point on. -/
inductive Announced.Entries (ε : Type) where
  | done (closing : Nat)
  /-- One more entry; `afterKey` is the place where a reader stands that gives up at the key. -/
  | next (unread : Option ε) (key : Announced ε) (afterKey : Nat) (value : Announced ε)
      (rest : Announced.Entries ε)
  | broken (reading passing unread : ε)
end

/-- The key under which a date is announced: as the only entry of a mapping, with its text. -/
def dateKey : String := "$__toml_private_datetime"

namespace Announced

variable {ε : Type}

instance : Inhabited (Announced ε) := ⟨.token .null 0⟩

/-- What a reader meets that stops here. -/
def Items.unread? : Items ε → Option ε
  | .done _ => none
  | .next unread _ _ => unread
  | .broken _ _ unread => some unread

def Entries.unread? : Entries ε → Option ε
  | .done _ => none
  | .next unread _ _ _ _ => unread
  | .broken _ _ unread => some unread

/-- A sequence of the given items, without places. -/
def Items.ofList : List (Announced ε) → Items ε
  | [] => .done 0
  | a :: rest => .next none a (ofList rest)

/-- A mapping of the given entries, without places. -/
def Entries.ofList : List (Announced ε × Announced ε) → Entries ε
  | [] => .done 0
  | (k, v) :: rest => .next none k 0 v (ofList rest)

def ofItems (items : List (Announced ε)) : Announced ε := .sequence 0 none (.ofList items)

def ofEntries (entries : List (Announced ε × Announced ε)) : Announced ε :=
  .mapping 0 none (.ofList entries)

/-- A text, without a place. -/
def ofText (s : String) : Announced ε := .token (.text s) 0

end Announced
end DepositForm
