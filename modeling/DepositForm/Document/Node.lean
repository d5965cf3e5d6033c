/-! # Metadata documents

A metadata document is a tree. Mappings keep their entries in the order they were given, also
when a key is repeated; sequences keep their items by index; every other value is a leaf.
-/
namespace DepositForm

/-- A value that has no parts. Integers live in one of two words: `integer` holds the signed 64-bit
range, `unsigned` is for the values above it. -/
inductive Scalar where
  | null
  | bool (b : Bool)
  | integer (i : Int64)
  | unsigned (u : UInt64)
  | float (x : Float)
  | text (s : String)
deriving Inhabited

/-- A metadata tree. -/
inductive Node where
  | leaf (value : Scalar)
  | sequence (items : List Node)
  | mapping (entries : List (String × Node))
deriving Inhabited

namespace Node

def isLeaf : Node → Bool
  | leaf _ => true
  | _ => false

def isContainer (n : Node) : Bool := !n.isLeaf

/-- The first child under `key`; only mappings have children with keys. -/
def get? (n : Node) (key : String) : Option Node :=
  match n with
  | mapping entries => entries.lookup key
  | _ => none

mutual
/-- All leaves, first to last. -/
def leaves : Node → List Scalar
  | leaf s => [s]
  | sequence items => itemLeaves items
  | mapping entries => entryLeaves entries

def itemLeaves : List Node → List Scalar
  | [] => []
  | n :: rest => n.leaves ++ itemLeaves rest

def entryLeaves : List (String × Node) → List Scalar
  | [] => []
  | (_, n) :: rest => n.leaves ++ entryLeaves rest
end

mutual
/-- How deep containers nest: a leaf has depth 0, an empty container depth 1. -/
def depth : Node → Nat
  | leaf _ => 0
  | sequence items => 1 + itemDepth items
  | mapping entries => 1 + entryDepth entries

/-- The greatest depth among items, 0 if there are none. -/
def itemDepth : List Node → Nat
  | [] => 0
  | n :: rest => max n.depth (itemDepth rest)

/-- The greatest depth among the values of entries, 0 if there are none. -/
def entryDepth : List (String × Node) → Nat
  | [] => 0
  | (_, n) :: rest => max n.depth (entryDepth rest)
end

end Node

/-! ## Sameness

Two trees are the same if they have the same shape, keys and scalars. Floats are compared as
numbers, so NaN differs from itself and the two zeros are the same; the three number forms never
equal each other. -/

def Scalar.same : Scalar → Scalar → Bool
  | .null, .null => true
  | .bool a, .bool b => a == b
  | .integer a, .integer b => a == b
  | .unsigned a, .unsigned b => a == b
  | .float a, .float b => a == b
  | .text a, .text b => a == b
  | _, _ => false

instance : BEq Scalar := ⟨Scalar.same⟩

namespace Node

mutual
def same : Node → Node → Bool
  | leaf a, leaf b => a == b
  | sequence a, sequence b => sameItems a b
  | mapping a, mapping b => sameEntries a b
  | _, _ => false

def sameItems : List Node → List Node → Bool
  | [], [] => true
  | a :: as, b :: bs => a.same b && sameItems as bs
  | _, _ => false

def sameEntries : List (String × Node) → List (String × Node) → Bool
  | [], [] => true
  | (k, a) :: as, (l, b) :: bs => k == l && a.same b && sameEntries as bs
  | _, _ => false
end

instance : BEq Node := ⟨same⟩

end Node
end DepositForm
