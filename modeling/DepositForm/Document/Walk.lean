import DepositForm.Decimal
import DepositForm.Document.Node

/-! # Walking a document and showing it

A function is called on each leaf, mapping entries first to last and sequence items by index.
`visit` carries a state along, `tryVisit` stops at the first failure, and `visitPaths` also
tells where the leaf stands: it writes the path down in one text, which grows on the way down and
is cut back on the way up. A document is shown as the texts of its scalars, and as a drawing of the
tree with one line per node.
-/
namespace DepositForm

namespace Node

variable {σ ε : Type}

mutual
/-- Calls `f` on every leaf, passing the state along. -/
def visit (f : σ → Scalar → σ) (s : σ) : Node → σ
  | leaf x => f s x
  | sequence items => visitItems f s items
  | mapping entries => visitEntries f s entries

def visitItems (f : σ → Scalar → σ) (s : σ) : List Node → σ
  | [] => s
  | n :: rest => visitItems f (n.visit f s) rest

def visitEntries (f : σ → Scalar → σ) (s : σ) : List (String × Node) → σ
  | [] => s
  | (_, n) :: rest => visitEntries f (n.visit f s) rest
end

/-- The walk as a function of its own, which takes the tree first. -/
def visitAll (n : Node) (f : σ → Scalar → σ) (s : σ) : σ := n.visit f s

/-- The number of leaves, counted on a walk. -/
def leafCount (n : Node) : Nat := n.visit (fun count _ => count + 1) 0

mutual
/-- Calls `f` on every leaf until a call fails. The state is the one after the last call, also
after a failing one. -/
def tryVisit (f : σ → Scalar → Except ε Unit × σ) (s : σ) : Node → Except ε Unit × σ
  | leaf x => f s x
  | sequence items => tryItems f s items
  | mapping entries => tryEntries f s entries

def tryItems (f : σ → Scalar → Except ε Unit × σ) (s : σ) : List Node → Except ε Unit × σ
  | [] => (.ok (), s)
  | n :: rest =>
    match n.tryVisit f s with
    | (.ok (), s) => tryItems f s rest
    | stopped => stopped

def tryEntries (f : σ → Scalar → Except ε Unit × σ) (s : σ) :
    List (String × Node) → Except ε Unit × σ
  | [] => (.ok (), s)
  | (_, n) :: rest =>
    match n.tryVisit f s with
    | (.ok (), s) => tryEntries f s rest
    | stopped => stopped
end

/-- Adds a segment to a path. The separator stands between two segments, but not after a path
that is still empty. -/
def pushSegment (separator path segment : String) : String :=
  if path.isEmpty then segment else path ++ separator ++ segment

/-- The characters at the front that take up no more than `bytes` bytes together. -/
def frontChars : Nat → List Char → List Char
  | _, [] => []
  | bytes, c :: rest =>
    if c.utf8Size ≤ bytes then c :: frontChars (bytes - c.utf8Size) rest else []

/-- Where a walk stands that tells paths: the path, which is one text for all levels, and the state
of the function that is called. -/
structure Trail (σ : Type) where
  path : String
  state : σ

namespace Trail

/-- Goes one segment further down. -/
def push (separator segment : String) (t : Trail σ) : Trail σ :=
  { t with path := pushSegment separator t.path segment }

/-- Cuts the path back to a number of bytes. -/
def truncate (bytes : Nat) (t : Trail σ) : Trail σ :=
  { t with path := String.ofList (frontChars bytes t.path.toList) }

/-- Does `walk` one segment further down, and cuts the path back to the size it had. -/
def below (separator segment : String) (walk : Trail σ → Trail σ) (t : Trail σ) : Trail σ :=
  (walk (t.push separator segment)).truncate t.path.utf8ByteSize

end Trail

mutual
/-- Calls `f` on every leaf with its path below the one of the trail. -/
def visitTrail (separator : String) (f : σ → String → Scalar → σ) (t : Trail σ) : Node → Trail σ
  | leaf x => { t with state := f t.state t.path x }
  | sequence items => visitItemsTrail separator f 0 t items
  | mapping entries => visitEntriesTrail separator f t entries

def visitItemsTrail (separator : String) (f : σ → String → Scalar → σ) (index : Nat)
    (t : Trail σ) : List Node → Trail σ
  | [] => t
  | n :: rest =>
    visitItemsTrail separator f (index + 1)
      (t.below separator (toString index) fun t => n.visitTrail separator f t) rest

def visitEntriesTrail (separator : String) (f : σ → String → Scalar → σ) (t : Trail σ) :
    List (String × Node) → Trail σ
  | [] => t
  | (key, n) :: rest =>
    visitEntriesTrail separator f (t.below separator key fun t => n.visitTrail separator f t) rest
end

/-- Calls `f` on every leaf with its field path: mapping keys and sequence indices, joined by
`separator`. A leaf at the root has the empty path. -/
def visitPaths (n : Node) (separator : String) (f : σ → String → Scalar → σ) (s : σ) : σ :=
  (n.visitTrail separator f ⟨"", s⟩).state

/-- The leaves with their paths, in document order. -/
def leafPaths (n : Node) (separator : String) : List (String × Scalar) :=
  (n.visitPaths separator (fun found path x => (path, x) :: found) []).reverse

end Node

/-! ## Showing -/

/-- The text of a scalar: texts stand as they are, floats are spelled out. -/
def Scalar.display : Scalar → String
  | .null => "null"
  | .bool b => if b then "true" else "false"
  | .integer i => toString i.toInt
  | .unsigned u => toString u.toNat
  | .float x => Decimal.Layout.plain.text x
  | .text s => s

namespace Node

/-- The label of a node under `name`: a leaf also shows its value. -/
def label (name : String) : Node → String
  | leaf x => name ++ ": " ++ x.display
  | _ => name

/-- The bars of the levels above a line, from the root down: a level whose node has no later
sibling leaves a blank. -/
def guide : List Bool → String
  | [] => ""
  | last :: rest => (if last then "    " else "│   ") ++ guide rest

/-- One line of the drawing, for a node that stands below the levels `above`. -/
def drawnLine (above : List Bool) (last : Bool) (label : String) : String :=
  guide above ++ (if last then "└── " else "├── ") ++ label ++ "\n"

mutual
/-- The lines below a node whose own levels are `above`. -/
def drawChildren (above : List Bool) : Node → String
  | leaf _ => ""
  | sequence items => drawItems above 0 items
  | mapping entries => drawEntries above entries

def drawItems (above : List Bool) (index : Nat) : List Node → String
  | [] => ""
  | n :: rest =>
    drawnLine above rest.isEmpty (n.label ("[" ++ toString index ++ "]")) ++
      n.drawChildren (above ++ [rest.isEmpty]) ++ drawItems above (index + 1) rest

def drawEntries (above : List Bool) : List (String × Node) → String
  | [] => ""
  | (key, n) :: rest =>
    drawnLine above rest.isEmpty (n.label key) ++
      n.drawChildren (above ++ [rest.isEmpty]) ++ drawEntries above rest
end

/-- The tree as text: the root's label, then every node below it on a line of its own. -/
def draw (n : Node) (root : String) : String := n.label root ++ "\n" ++ n.drawChildren []

end Node

end DepositForm
