import DepositForm.Command.Output
import DepositForm.Document.Walk
import DepositForm.Proofs.Document.Following
import DepositForm.Proofs.Json.Written
import Mathlib.Data.List.Infix

/-! # The drawing of a tree, line by line

The drawing has a line for every node, and the line can be told without drawing anything else. Nodes
are told by their addresses, the places of the children on the way down from the root (`at?`); a
line has a bar or a blank for every node strictly between the root and its own, a tee or a corner
for its own, and then the label (`lineAt`).

* `addresses` lists the addresses of all nodes. In the order of lists, in which a list stands before
  those that go on from it, they stand one after the other (`pairwise_addresses`), so no node comes
  twice and the order is the one in which a node stands in front of its children.
* Drawing carries the levels above along, from the root down. The invariant is that the lines below
  a node are those of its own tree with the bars of these levels in front (`drawChildren_eq`).
* As no line has a line break in it, the text falls into these lines again
  (`drawn_line_by_line`). Numbers have none whatever they are; keys and texts might.
-/
namespace DepositForm

/-! ## Texts of one line -/

/-- A text without a line break. -/
def OneLine (s : String) : Prop := '\n' ∉ s.toList

instance (s : String) : Decidable (OneLine s) := inferInstanceAs (Decidable (¬ _))

theorem OneLine.append {s t : String} (hs : OneLine s) (ht : OneLine t) : OneLine (s ++ t) := by
  unfold OneLine at *
  simp [hs, ht]

theorem oneLine_ofList {cs : List Char} (h : '\n' ∉ cs) : OneLine (String.ofList cs) := by
  rwa [OneLine, String.toList_ofList]

theorem newline_not_mem_toDigits (n : Nat) : '\n' ∉ Nat.toDigits 10 n := fun h =>
  absurd (Nat.isDigit_of_mem_toDigits (by decide) (by decide) h) (by decide)

theorem oneLine_toString (n : Nat) : OneLine (toString n) := by
  rw [OneLine, Nat.toString_eq_repr, Nat.toList_repr]
  exact newline_not_mem_toDigits n

theorem oneLine_toString_int (i : Int) : OneLine (toString i) := by
  rw [OneLine, Json.toList_toString_int]
  have hdigits := newline_not_mem_toDigits i.natAbs
  split <;> simp [hdigits]

namespace Decimal

theorem newline_not_mem_positionalText {digits : List Char} (h : '\n' ∉ digits) (keepsPoint : Bool)
    (places : Int) : '\n' ∉ positionalText keepsPoint digits places := by
  unfold positionalText
  split
  · simp [h]
  split
  · cases keepsPoint <;> simp [h]
  · have htake : '\n' ∉ digits.take places.toNat := mt List.mem_of_mem_take h
    have hdrop : '\n' ∉ digits.drop places.toNat := mt List.mem_of_mem_drop h
    simp [htake, hdrop]

/-- A float that is spelled out has no line break, whatever it is. -/
theorem oneLine_plain (x : Float) : OneLine (Layout.plain.text x) := by
  unfold Layout.text
  cases Parts.ofFloat x with
  | nan => decide
  | infinite negative => cases negative <;> decide
  | finite negative significand exponent =>
    refine oneLine_ofList ?_
    have hdigits :
        '\n' ∉ Layout.plain.digitsText (shortest Layout.plain.tie significand exponent) :=
      newline_not_mem_positionalText (newline_not_mem_toDigits _) _ _
    have hbody : '\n' ∉ if significand = 0 then
          (if Layout.plain.keepsPoint then ['0', '.', '0'] else ['0'])
        else Layout.plain.digitsText (shortest Layout.plain.tie significand exponent) := by
      split
      · decide
      · exact hdigits
    cases negative
    · exact hbody
    · exact fun h => hbody ((List.mem_cons.mp h).resolve_left (by decide))

end Decimal

/-- Only a text can have a line break. -/
theorem Scalar.oneLine_display {x : Scalar} (h : ∀ s, x = .text s → OneLine s) :
    OneLine x.display := by
  cases x with
  | null => decide
  | bool b => cases b <;> decide
  | integer i => exact oneLine_toString_int _
  | unsigned u => exact oneLine_toString _
  | float x => exact Decimal.oneLine_plain x
  | text s => exact h s rfl

namespace Node

open Command (unlines)

/-! ## Children and addresses -/

/-- Items with the names they are shown under, which are their indices in brackets. -/
def namedItems (index : Nat) (items : List Node) : List (String × Node) :=
  (items.zipIdx index).map fun (n, i) => ("[" ++ toString i ++ "]", n)

/-- The children of a node with the names they are shown under. -/
def children : Node → List (String × Node)
  | leaf _ => []
  | sequence items => namedItems 0 items
  | mapping entries => entries

/-- Goes down from a node, by the places of children: the node at an address, and its name. -/
def at? : String × Node → List Nat → Option (String × Node)
  | shown, [] => some shown
  | (_, n), place :: rest => n.children[place]?.bind (at? · rest)

mutual
/-- The addresses of a node and all below it, first to last. -/
def addresses : Node → List (List Nat)
  | leaf _ => [[]]
  | sequence items => [] :: itemAddresses 0 items
  | mapping entries => [] :: entryAddresses 0 entries

/-- The addresses in items, the first of which is at `place`. -/
def itemAddresses (place : Nat) : List Node → List (List Nat)
  | [] => []
  | n :: rest => n.addresses.map (place :: ·) ++ itemAddresses (place + 1) rest

def entryAddresses (place : Nat) : List (String × Node) → List (List Nat)
  | [] => []
  | (_, n) :: rest => n.addresses.map (place :: ·) ++ entryAddresses (place + 1) rest
end

/-- Whether no sibling comes after the node at an address. -/
def isLast (shown : String × Node) (address : List Nat) : Bool :=
  (at? shown address.dropLast).any fun parent =>
    address.getLast?.map (· + 1) = some parent.2.children.length

/-- The line of the node at an address. -/
def lineAt (shown : String × Node) (address : List Nat) : String :=
  String.join (address.inits.tail.dropLast.map fun above =>
      if isLast shown above then "    " else "│   ") ++
    (if address = [] then "" else if isLast shown address then "└── " else "├── ") ++
    ((at? shown address).elim "" fun (name, n) => n.label name)

theorem namedItems_cons (index : Nat) (n : Node) (rest : List Node) :
    namedItems index (n :: rest) =
      ("[" ++ toString index ++ "]", n) :: namedItems (index + 1) rest := by
  rw [namedItems, List.zipIdx_cons, List.map_cons]
  rfl

theorem isEmpty_namedItems (index : Nat) (items : List Node) :
    (namedItems index items).isEmpty = items.isEmpty := by
  cases items <;> rfl

mutual
/-- What holds of a node whenever it holds of its children holds of every node. -/
theorem children_induction {p : Node → Prop} (h : ∀ n : Node, (∀ c ∈ n.children, p c.2) → p n) :
    ∀ n, p n
  | leaf x => h _ (by simp [children])
  | sequence items => h _ (items_induction h 0 items)
  | mapping entries => h _ (entries_induction h entries)

theorem items_induction {p : Node → Prop} (h : ∀ n : Node, (∀ c ∈ n.children, p c.2) → p n)
    (index : Nat) : ∀ items : List Node, ∀ c ∈ namedItems index items, p c.2
  | [] => by simp [namedItems]
  | n :: rest => by
    rw [namedItems_cons]
    exact List.forall_mem_cons.mpr ⟨children_induction h n, items_induction h (index + 1) rest⟩

theorem entries_induction {p : Node → Prop} (h : ∀ n : Node, (∀ c ∈ n.children, p c.2) → p n) :
    ∀ entries : List (String × Node), ∀ c ∈ entries, p c.2
  | [] => by simp
  | (_, n) :: rest =>
    List.forall_mem_cons.mpr ⟨children_induction h n, entries_induction h rest⟩
end

theorem addresses_eq (n : Node) : n.addresses = [] :: entryAddresses 0 n.children := by
  have hitems : ∀ (index place : Nat) (items : List Node),
      itemAddresses place items = entryAddresses place (namedItems index items) := by
    intro index place items
    induction items generalizing index place with
    | nil => rfl
    | cons n rest ih => rw [namedItems_cons, itemAddresses, entryAddresses, ih (index + 1)]
  cases n with
  | leaf x => rfl
  | sequence items => rw [addresses, children, ← hitems]
  | mapping entries => rfl

theorem drawChildren_eq_drawEntries (above : List Bool) (n : Node) :
    n.drawChildren above = drawEntries above n.children := by
  have hitems : ∀ (index : Nat) (items : List Node),
      drawItems above index items = drawEntries above (namedItems index items) := by
    intro index items
    induction items generalizing index with
    | nil => rfl
    | cons n rest ih =>
      rw [namedItems_cons, drawItems, drawEntries, ih, isEmpty_namedItems]
  cases n with
  | leaf x => rfl
  | sequence items => exact hitems 0 items
  | mapping entries => rfl

/-! ## The addresses of a tree -/

section Addresses
variable {n : Node} {place : Nat} {entries : List (String × Node)} {address : List Nat}

theorem mem_entryAddresses :
    address ∈ entryAddresses place entries ↔ ∃ i rest, address = (place + i) :: rest ∧
      ∃ c ∈ entries[i]?, rest ∈ c.2.addresses := by
  induction entries generalizing place with
  | nil => simp [entryAddresses]
  | cons e later ih =>
    rw [entryAddresses, List.mem_append, List.mem_map, ih]
    constructor
    · rintro (⟨rest, hrest, rfl⟩ | ⟨i, rest, rfl, c, hc, hrest⟩)
      · exact ⟨0, rest, rfl, e, by simp, hrest⟩
      · exact ⟨i + 1, rest, by rw [Nat.add_assoc, Nat.add_comm 1], c, by simpa using hc, hrest⟩
    · rintro ⟨i, rest, rfl, c, hc, hrest⟩
      cases i with
      | zero =>
        obtain rfl : e = c := by simpa using hc
        exact .inl ⟨rest, hrest, rfl⟩
      | succ i =>
        exact .inr ⟨i, rest, by rw [Nat.add_assoc, Nat.add_comm 1], c, by simpa using hc, hrest⟩

/-- There is a node at every address that is listed, and at no other. -/
theorem mem_addresses (shown : String × Node) (address : List Nat) :
    address ∈ shown.2.addresses ↔ (at? shown address).isSome := by
  induction address generalizing shown with
  | nil => simp [addresses_eq, at?]
  | cons place rest ih =>
    obtain ⟨name, n⟩ := shown
    rw [addresses_eq, List.mem_cons, mem_entryAddresses, at?, Option.isSome_bind,
      Option.any_eq_true]
    constructor
    · rintro (h | ⟨i, rest, heq, c, hc, hrest⟩)
      · cases h
      · obtain ⟨rfl, rfl⟩ := List.cons.inj heq
        rw [Nat.zero_add]
        exact ⟨c, hc, (ih c).mp hrest⟩
    · rintro ⟨c, hc, hrest⟩
      exact .inr ⟨place, rest, by rw [Nat.zero_add], c, hc, (ih c).mpr hrest⟩

/-- The addresses below one child stand before those below the later ones. -/
theorem pairwise_entryAddresses (h : ∀ c ∈ entries, c.2.addresses.Pairwise (· < ·)) :
    (entryAddresses place entries).Pairwise (· < ·) := by
  induction entries generalizing place with
  | nil => exact List.Pairwise.nil
  | cons e later ih =>
    obtain ⟨hfirst, hlater⟩ := List.forall_mem_cons.mp h
    rw [entryAddresses, List.pairwise_append]
    refine ⟨?_, ih hlater, ?_⟩
    · exact hfirst.map _ fun _ _ hlt => List.cons_lt_cons_self.mpr hlt
    · intro address haddress address' haddress'
      obtain ⟨rest, -, rfl⟩ := List.mem_map.mp haddress
      obtain ⟨i, rest', rfl, -⟩ := mem_entryAddresses.mp haddress'
      exact List.Lex.rel (by omega)

/-- The addresses are listed in the order of lists. -/
theorem pairwise_addresses (n : Node) : n.addresses.Pairwise (· < ·) := by
  induction n using children_induction with
  | h n ih =>
    rw [addresses_eq, List.pairwise_cons]
    refine ⟨fun address haddress => ?_, pairwise_entryAddresses ih⟩
    obtain ⟨i, rest, rfl, -⟩ := mem_entryAddresses.mp haddress
    exact List.Lex.nil

end Addresses

/-! ## Lines -/

section Lines
variable {n : Node} {name : String} {place : Nat} {child : String × Node} {rest : List Nat}

theorem at?_cons (h : n.children[place]? = some child) (rest : List Nat) :
    at? (name, n) (place :: rest) = at? child rest := by
  rw [at?, h, Option.bind_some]

theorem isLast_child (name : String) (n : Node) (place : Nat) :
    isLast (name, n) [place] = decide (place + 1 = n.children.length) := by
  simp [isLast, at?]

theorem isLast_below (h : n.children[place]? = some child) (hrest : rest ≠ []) :
    isLast (name, n) (place :: rest) = isLast child rest := by
  obtain ⟨second, others, rfl⟩ := List.exists_cons_of_ne_nil hrest
  rw [isLast, List.dropLast_cons_of_ne_nil hrest, at?_cons h, List.getLast?_cons_cons]
  rfl

/-- The nodes strictly between the root and a node below one of its children are this child and
those strictly between it and the node. -/
theorem between_cons (place : Nat) (hrest : rest ≠ []) :
    (place :: rest).inits.tail.dropLast =
      [place] :: rest.inits.tail.dropLast.map (place :: ·) := by
  obtain ⟨second, others, rfl⟩ := List.exists_cons_of_ne_nil hrest
  have hne : others.inits ≠ [] := List.ne_nil_of_mem ((List.mem_inits _ _).mpr others.nil_prefix)
  simp only [List.inits_cons, List.tail_cons, List.map_cons, List.map_dropLast]
  exact List.dropLast_cons_of_ne_nil (by simpa using hne)

theorem ne_nil_of_between {above : List Nat} (h : above ∈ rest.inits.tail.dropLast) :
    above ≠ [] := by
  cases rest with
  | nil => cases h
  | cons second others =>
    have hmem := List.mem_of_mem_dropLast h
    rw [List.inits_cons, List.tail_cons] at hmem
    obtain ⟨front, -, rfl⟩ := List.mem_map.mp hmem
    exact List.cons_ne_nil _ _

@[simp] theorem lineAt_nil (name : String) (n : Node) : lineAt (name, n) [] = n.label name := by
  simp [lineAt, at?]

/-- The line of a child. -/
theorem lineAt_child (h : n.children[place]? = some child) :
    lineAt (name, n) [place] =
      (if place + 1 = n.children.length then "└── " else "├── ") ++ child.2.label child.1 := by
  simp [lineAt, isLast_child, at?, h]

/-- The line of a node further down is its line below the child, with a bar in front unless the
child is the last one. -/
theorem lineAt_below (h : n.children[place]? = some child) (hrest : rest ≠ []) :
    lineAt (name, n) (place :: rest) =
      (if place + 1 = n.children.length then "    " else "│   ") ++ lineAt child rest := by
  have hbars : (rest.inits.tail.dropLast.map (place :: ·)).map (fun above =>
        if isLast (name, n) above then "    " else "│   ") =
      rest.inits.tail.dropLast.map fun above => if isLast child above then "    " else "│   " := by
    rw [List.map_map]
    refine List.map_congr_left fun above habove => ?_
    rw [Function.comp_apply, isLast_below h (ne_nil_of_between habove)]
  rw [lineAt, lineAt, between_cons place hrest, List.map_cons, hbars, isLast_child,
    isLast_below h hrest, at?_cons h]
  simp [hrest, String.append_assoc]

end Lines

/-! ## Drawing -/

section Drawing
variable {n : Node} {name : String} {place : Nat} {child : String × Node} {above : List Bool}
  {last : Bool}

theorem unlines_cons (line : String) (rest : List String) :
    unlines (line :: rest) = line ++ "\n" ++ unlines rest := by
  rw [unlines, List.map_cons, String.join_cons, unlines]

theorem unlines_append (lines rest : List String) :
    unlines (lines ++ rest) = unlines lines ++ unlines rest := by
  rw [unlines, List.map_append, String.join_append, unlines, unlines]

theorem guide_concat (above : List Bool) (last : Bool) :
    guide (above ++ [last]) = guide above ++ if last then "    " else "│   " := by
  induction above with
  | nil => simp [guide]
  | cons first rest ih => rw [List.cons_append, guide, guide, ih, String.append_assoc]

/-- The lines of the tree of a node below its own, with bars for the levels above in front. -/
def linesBelow (shown : String × Node) (above : List Bool) : List String :=
  (entryAddresses 0 shown.2.children).map fun address => guide above ++ lineAt shown address

/-- A child is drawn as its own line, and the lines below it behind one more bar. -/
theorem drawn_child (h : n.children[place]? = some child)
    (hlast : last = decide (place + 1 = n.children.length))
    (hbelow : child.2.drawChildren (above ++ [last]) =
      unlines (linesBelow child (above ++ [last]))) :
    drawnLine above last (child.2.label child.1) ++ child.2.drawChildren (above ++ [last]) =
      unlines ((child.2.addresses.map (place :: ·)).map fun address =>
        guide above ++ lineAt (name, n) address) := by
  have hlines : (entryAddresses 0 child.2.children).map (fun address =>
      guide above ++ lineAt (name, n) (place :: address)) = linesBelow child (above ++ [last]) := by
    refine List.map_congr_left fun address haddress => ?_
    obtain ⟨i, rest, rfl, -⟩ := mem_entryAddresses.mp haddress
    rw [lineAt_below h (List.cons_ne_nil _ _), guide_concat, hlast]
    simp [String.append_assoc]
  rw [addresses_eq, List.map_cons, List.map_cons, unlines_cons, List.map_map, Function.comp_def,
    hlines, hbelow, lineAt_child h, drawnLine, hlast]
  simp [String.append_assoc]

theorem drawEntries_eq (front : List (String × Node)) {entries : List (String × Node)}
    (hn : n.children = front ++ entries) (h : ∀ child ∈ entries, ∀ above,
      child.2.drawChildren above = unlines (linesBelow child above)) :
    drawEntries above entries = unlines ((entryAddresses front.length entries).map fun address =>
      guide above ++ lineAt (name, n) address) := by
  induction entries generalizing front with
  | nil => rfl
  | cons child rest ih =>
    obtain ⟨hchild, hrest⟩ := List.forall_mem_cons.mp h
    have hplace : n.children[front.length]? = some child := by simp [hn]
    have hlast : rest.isEmpty = decide (front.length + 1 = n.children.length) := by
      rw [hn]
      cases rest <;> simp
    have hlater := ih (front ++ [child]) (by simp [hn]) hrest
    rw [List.length_append, List.length_singleton] at hlater
    obtain ⟨key, c⟩ := child
    rw [drawEntries, entryAddresses, List.map_append, unlines_append,
      drawn_child hplace hlast (hchild _), hlater]

/-- **The invariant of drawing.** What is drawn below a node is the lines below it, behind the bars
of the levels above. -/
theorem drawChildren_eq (shown : String × Node) (above : List Bool) :
    shown.2.drawChildren above = unlines (linesBelow shown above) := by
  obtain ⟨name, n⟩ := shown
  induction n using children_induction generalizing name above with
  | h n ih =>
    rw [drawChildren_eq_drawEntries]
    exact drawEntries_eq [] rfl fun child hchild above => ih child hchild above child.1

/-- The drawing is a line for every address. -/
theorem draw_eq (n : Node) (root : String) :
    n.draw root = unlines (n.addresses.map (lineAt (root, n))) := by
  have hbelow : linesBelow (root, n) [] =
      (entryAddresses 0 n.children).map (lineAt (root, n)) :=
    List.map_congr_left fun address _ => String.empty_append
  rw [draw, drawChildren_eq (root, n), hbelow, addresses_eq, List.map_cons, unlines_cons,
    lineAt_nil]

end Drawing

/-! ## No line breaks -/

/-- The texts that a node brings into the drawing have no line break: its keys, or its own text. -/
def Unbroken : Node → Prop
  | leaf (.text s) => OneLine s
  | mapping entries => ∀ key ∈ entries.map Prod.fst, OneLine key
  | _ => True

instance : DecidablePred Unbroken
  | leaf (.text s) => inferInstanceAs (Decidable (OneLine s))
  | mapping entries => inferInstanceAs (Decidable (∀ key ∈ entries.map Prod.fst, OneLine key))
  | leaf .null | leaf (.bool _) | leaf (.integer _) | leaf (.unsigned _) | leaf (.float _)
  | sequence _ => .isTrue trivial

section Unbroken
variable {n : Node} {name : String} {shown found : String × Node} {address : List Nat}

theorem oneLine_label (hname : OneLine name) (h : n.Everywhere Unbroken) :
    OneLine (n.label name) := by
  cases n with
  | leaf x =>
    have hvalue : OneLine x.display := Scalar.oneLine_display fun s hs => by subst hs; exact h
    exact (hname.append (by decide)).append hvalue
  | sequence items => exact hname
  | mapping entries => exact hname

theorem unbroken_child (h : n.Everywhere Unbroken) {child : String × Node}
    (hchild : child ∈ n.children) : OneLine child.1 ∧ child.2.Everywhere Unbroken := by
  cases n with
  | leaf x => cases hchild
  | sequence items =>
    obtain ⟨⟨c, index⟩, hmem, rfl⟩ := List.mem_map.mp hchild
    have hitems := (itemsEverywhere_iff _).mp h.2
    refine ⟨((show OneLine "[" by decide).append (oneLine_toString index)).append (by decide), ?_⟩
    exact hitems c (List.fst_mem_of_mem_zipIdx hmem)
  | mapping entries =>
    exact ⟨h.1 _ (List.mem_map_of_mem hchild), (entriesEverywhere_iff _).mp h.2 _ hchild⟩

/-- What is found at an address has a name without a line break, and brings none into the
drawing. -/
theorem unbroken_at (hname : OneLine shown.1) (h : shown.2.Everywhere Unbroken)
    (hfound : at? shown address = some found) :
    OneLine found.1 ∧ found.2.Everywhere Unbroken := by
  induction address generalizing shown with
  | nil =>
    obtain rfl : shown = found := Option.some.inj hfound
    exact ⟨hname, h⟩
  | cons place rest ih =>
    obtain ⟨name, n⟩ := shown
    obtain ⟨child, hchild, hrest⟩ := Option.bind_eq_some_iff.mp hfound
    obtain ⟨hkey, hbelow⟩ := unbroken_child h (List.mem_of_getElem? hchild)
    exact ih hkey hbelow hrest

theorem oneLine_lineAt (hname : OneLine shown.1) (h : shown.2.Everywhere Unbroken)
    (address : List Nat) : OneLine (lineAt shown address) := by
  have hbars : ∀ last : Bool, OneLine (if last then "    " else "│   ") := by decide
  have hjoined : OneLine (String.join (address.inits.tail.dropLast.map fun above =>
      if isLast shown above then "    " else "│   ")) := by
    rw [OneLine, String.toList_join, List.mem_flatMap]
    rintro ⟨bar, hbar, hmem⟩
    obtain ⟨above, -, rfl⟩ := List.mem_map.mp hbar
    exact hbars _ hmem
  have hmark : OneLine (if address = [] then "" else
      if isLast shown address then "└── " else "├── ") := by
    split
    · decide
    split <;> decide
  refine (hjoined.append hmark).append ?_
  cases hfound : at? shown address with
  | none => decide
  | some found =>
    obtain ⟨hkey, hbelow⟩ := unbroken_at hname h hfound
    exact oneLine_label hkey hbelow

end Unbroken

/-! ## The text cut into lines -/

/-- A text of lines is cut into them at its line breaks. Behind the last one there is nothing. -/
theorem pieces_unlines {lines : List String} (h : ∀ line ∈ lines, OneLine line) :
    pieces '\n' (unlines lines) = lines ++ [""] := by
  have hchars : (unlines lines).toList = ['\n'].intercalate (lines.map String.toList ++ [[]]) := by
    induction lines with
    | nil => rfl
    | cons line rest ih =>
      have hne : rest.map String.toList ++ [[]] ≠ [] := by simp
      rw [unlines_cons, String.toList_append, String.toList_append,
        ih fun line hline => h line (List.mem_cons_of_mem _ hline), List.map_cons, List.cons_append,
        List.intercalate_cons_of_ne_nil hne]
      rfl
  have hfree : ∀ line ∈ lines.map String.toList ++ [[]], '\n' ∉ line := by
    simpa [OneLine, or_imp, forall_and] using h
  rw [pieces, hchars, List.splitOn_intercalate '\n' hfree (by simp), List.map_append, List.map_map]
  simp [Function.comp_def]

/-- **The drawing has a line for every node.** Let neither the name of the root nor any key or text
have a line break. Then the drawing falls into lines: the line of each address (`lineAt`), in the
order of the addresses, of which each stands in front of those below it; there is one for every
node. The first line is the label of the root. -/
theorem drawn_line_by_line {n : Node} {root : String} (hroot : OneLine root)
    (h : n.Everywhere Unbroken) :
    pieces '\n' (n.draw root) = n.addresses.map (lineAt (root, n)) ++ [""] ∧
    (pieces '\n' (n.draw root)).head? = some (n.label root) ∧
    n.addresses.Pairwise (· < ·) ∧
    ∀ address, address ∈ n.addresses ↔ (at? (root, n) address).isSome := by
  have hlines : ∀ line ∈ n.addresses.map (lineAt (root, n)), OneLine line :=
    List.forall_mem_map.mpr fun address _ => oneLine_lineAt hroot h address
  have hcut : pieces '\n' (n.draw root) = n.addresses.map (lineAt (root, n)) ++ [""] := by
    rw [draw_eq, pieces_unlines hlines]
  refine ⟨hcut, ?_, pairwise_addresses n, mem_addresses (root, n)⟩
  rw [hcut, addresses_eq, List.map_cons, lineAt_nil]
  rfl

/-- A document with a list and a mapping in it, an empty list, and a number. -/
def drawnDocument : Node :=
  mapping [
    ("authors", sequence [mapping [("name", leaf (.text "Ada")), ("roles", sequence [])]]),
    ("year", leaf (.integer 1843))]

theorem drawn_line_by_line_nested :
    (OneLine "work.json" ∧ drawnDocument.Everywhere Unbroken) ∧
    pieces '\n' (drawnDocument.draw "work.json") = [
      "work.json",
      "├── authors",
      "│   └── [0]",
      "│       ├── name: Ada",
      "│       └── roles",
      "└── year: 1843",
      ""] := by
  have hroot : OneLine "work.json" := by decide
  have hdocument : drawnDocument.Everywhere Unbroken := by decide
  refine ⟨⟨hroot, hdocument⟩, ?_⟩
  rw [(drawn_line_by_line hroot hdocument).1]
  decide

end Node
end DepositForm
