import DepositForm.Entry.Group
import DepositForm.Proofs.Document.Paths
import DepositForm.Proofs.Json.RoundTrip

/-! # Paths of fields

The field table of a kind, the names under which an entry is written, the rule for the path of a
field and the walk through a document all tell where a text of a group stands. They agree: a group
that is written and read again is a list of mappings (`Group.node`), because it has no float, no
small large integer and no repeated name, and is two levels deep; and the routes of that tree, below
any name, are the field paths (`leafPaths_group`).

The path rule looks at whether the name of the group is empty, and the walk at whether the path so
far is. Below an index the path is never empty, which makes the two the same (`routeText_field`).
-/
namespace DepositForm

variable {α : Type} [Entry α]

namespace EntryKind

theorem length_fields (kind : EntryKind) : kind.fields.length = 4 := by
  cases kind <;> rfl

/-- The names of a kind could be the keys of a mapping that is read. -/
theorem names_proper (kind : EntryKind) :
    (kind.fields.map Field.name).Nodup ∧ (kind.fields.map Field.name).head? ≠ some dateKey := by
  cases kind <;> decide

end EntryKind

/-! ## The tree of a group -/

namespace Entry

/-- An entry as a tree. -/
def node (e : α) : Node := .mapping ((members e).map fun (name, text) => (name, .leaf (.text text)))

theorem length_names : (names α).length = 4 := by
  rw [names_eq, List.length_map, EntryKind.length_fields]

theorem length_members (e : α) : (members e).length = 4 := by
  rw [members, List.length_zip, length_texts, Nat.min_self, length_names]

theorem map_fst_members (e : α) : (members e).map Prod.fst = (kind α).fields.map Field.name := by
  rw [← names_eq, members, List.map_fst_zip]
  exact Nat.le_of_eq (length_texts e).symm

theorem write_eq_writeNode (e : α) : write e = Json.writeNode (node e) := by
  rw [write, node, Json.writeNode]
  refine congrArg Json.writeObject ?_
  induction members e with
  | nil => rfl
  | cons m rest ih => rw [List.map_cons, List.map_cons, Json.writeEntries, ih]; rfl

theorem floatless_node (e : α) : (node e).Floatless := by
  refine ⟨trivial, (Node.entriesEverywhere_iff _).mpr ?_⟩
  exact List.forall_mem_map.mpr fun _ _ => trivial

theorem canonical_node (e : α) : (node e).Canonical := by
  have hkeys : ((members e).map fun (name, text) => (name, Node.leaf (.text text))).map Prod.fst =
      (kind α).fields.map Field.name := by
    rw [List.map_map, ← map_fst_members e]
    rfl
  obtain ⟨hdistinct, hfirst⟩ := (kind α).names_proper
  refine Node.canonical_mapping.mpr ⟨by rwa [hkeys], by rwa [hkeys], ?_⟩
  exact List.forall_mem_map.mpr fun _ _ => trivial

theorem depth_node (e : α) : (node e).depth ≤ 1 := by
  have hleaves : Node.entryDepth ((members e).map fun (name, text) =>
      (name, Node.leaf (.text text))) ≤ 0 :=
    Node.entryDepth_le_iff.mpr (List.forall_mem_map.mpr fun _ _ => Nat.le_refl 0)
  rw [node, Node.depth]
  omega

theorem routes_node (e : α) :
    (node e).routes = (members e).map fun (name, text) => ([name], .text text) := by
  rw [node, Node.routes]
  induction members e with
  | nil => rfl
  | cons m rest ih => rw [List.map_cons, List.map_cons, Node.entryRoutes, ih]; rfl

end Entry

namespace Group

/-- A group as a tree. -/
def node (g : Group α) : Node := .sequence (g.entries.map Entry.node)

theorem json_eq_text (g : Group α) : g.json = Json.text g.node := by
  have hitems : g.entries.map Entry.write = Json.writeItems (g.entries.map Entry.node) := by
    induction g.entries with
    | nil => rfl
    | cons e rest ih =>
      rw [List.map_cons, List.map_cons, Json.writeItems, ih, Entry.write_eq_writeNode]
  rw [json, write, hitems]
  rfl

/-- **A group that is written and read again is its tree**, whatever its texts are. -/
theorem read_json (g : Group α) :
    Format.readJson Announced.toNode g.json = .ok g.node := by
  rw [json_eq_text]
  refine Json.read_text ?_ ?_ ?_
  · refine ⟨trivial, (Node.itemsEverywhere_iff _).mpr ?_⟩
    exact List.forall_mem_map.mpr fun e _ => Entry.floatless_node e
  · refine Node.canonical_sequence.mpr ?_
    exact List.forall_mem_map.mpr fun e _ => Entry.canonical_node e
  · have hitems : Node.itemDepth (g.entries.map Entry.node) ≤ 1 :=
      Node.itemDepth_le_iff.mpr (List.forall_mem_map.mpr fun e _ => Entry.depth_node e)
    rw [node, Node.depth]
    unfold Json.depthLimit
    omega

end Group

/-! ## Its routes -/

namespace Node

theorem itemRoutes_eq (index : Nat) (items : List Node) :
    itemRoutes index items =
      (items.zipIdx index).flatMap fun (n, i) => n.routes.map (routeUnder (toString i)) := by
  induction items generalizing index with
  | nil => rfl
  | cons n rest ih => rw [itemRoutes, ih, List.zipIdx_cons, List.flatMap_cons]

/-- Below the name of a group, empty or not, and an index, the walk writes the path of the field. -/
theorem routeText_field (base : String) (index : Nat) (name : String) :
    routeText "." [base, toString index, name] = fieldPath base index name := by
  unfold fieldPath routeText
  -- An empty name is dropped by the walk and left out by the rule.
  cases hbase : base.isEmpty
  · simp [hbase, String.intercalate_cons_cons, String.append_assoc]
  · simp [hbase, String.intercalate_cons_cons, String.append_assoc]

end Node

namespace Group

/-- The texts of an entry at its index, each under the path of its field. -/
def fieldTexts (base : String) (e : α) (index : Nat) : List (String × Scalar) :=
  (Entry.members e).map fun (name, text) => (fieldPath base index name, .text text)

theorem length_fieldTexts (base : String) (e : α) (index : Nat) :
    (fieldTexts base e index).length = 4 := by
  rw [fieldTexts, List.length_map, Entry.length_members]

theorem map_fst_fieldTexts (base : String) (e : α) (index : Nat) :
    (fieldTexts base e index).map Prod.fst =
      (Entry.kind α).fields.map fun field => fieldPath base index field.name := by
  have hnames := congrArg (List.map (fieldPath base index)) (Entry.map_fst_members e)
  rw [List.map_map, List.map_map] at hnames
  rw [fieldTexts, List.map_map]
  exact hnames

/-- What the walk reports below `base`, one entry after the other. -/
theorem leafPaths_group (g : Group α) (base : String) :
    (Node.mapping [(base, g.node)]).leafPaths "." =
      g.entries.zipIdx.flatMap fun (e, index) => fieldTexts base e index := by
  rw [Node.leafPaths_eq, Node.routes, Node.entryRoutes, Node.entryRoutes, List.append_nil, node,
    Node.routes, Node.itemRoutes_eq, List.zipIdx_map, List.flatMap_map, List.map_flatMap,
    List.map_flatMap]
  refine congrArg (List.flatMap · _) (funext fun (e, index) => ?_)
  simp only [Prod.map_apply, id_eq, Entry.routes_node, List.map_map, fieldTexts]
  refine List.map_congr_left fun (name, text) _ => ?_
  exact congrArg (·, Scalar.text text) (Node.routeText_field base index name)

theorem map_fst_leafPaths (g : Group α) (base : String) :
    ((Node.mapping [(base, g.node)]).leafPaths ".").map Prod.fst = g.fieldPaths base := by
  have hindex : g.entries.zipIdx.map Prod.snd = List.range g.length := by
    rw [List.zipIdx_map_snd, List.range_eq_range']
    rfl
  rw [leafPaths_group, List.map_flatMap, fieldPaths, ← hindex, List.flatMap_map]
  exact congrArg (List.flatMap · _) (funext fun (e, index) => map_fst_fieldTexts base e index)

end Group

/-! ## Positions -/

/-- In lists of one length, laid one after the other, a place is found by its list and its place in
there. -/
theorem getElem?_flatMap_of_length {α β : Type} {f : α → List β} {size j : Nat}
    (hsize : ∀ a, (f a).length = size) (hj : j < size) (l : List α) (i : Nat) :
    (l.flatMap f)[size * i + j]? = l[i]?.bind fun a => (f a)[j]? := by
  induction l generalizing i with
  | nil => simp
  | cons a l ih =>
    rw [List.flatMap_cons]
    cases i with
    | zero =>
      have hfirst : size * 0 + j < (f a).length := by rw [hsize a]; omega
      rw [List.getElem?_append_left hfirst]
      simp
    | succ i =>
      have hlater : (f a).length ≤ size * (i + 1) + j := by
        rw [hsize a, Nat.mul_succ]
        omega
      have hplace : size * (i + 1) + j - (f a).length = size * i + j := by
        rw [hsize a, Nat.mul_succ]
        omega
      rw [List.getElem?_append_right hlater, hplace, ih]
      simp

/-- An entry has a text for each field, in the order of the fields. -/
theorem Entry.exists_member (e : α) {j : Nat} (hj : j < 4) :
    ∃ field text, (kind α).fields[j]? = some field ∧
      (members e)[j]? = some (field.name, text) := by
  have hfield : j < (kind α).fields.length := by rw [EntryKind.length_fields]; exact hj
  have hmember : j < (members e).length := by rw [length_members]; exact hj
  have hname := congrArg (·[j]?) (map_fst_members e)
  simp only [List.getElem?_map, List.getElem?_eq_getElem hfield, List.getElem?_eq_getElem hmember,
    Option.map_some, Option.some.injEq] at hname
  refine ⟨(kind α).fields[j], (members e)[j].2, List.getElem?_eq_getElem hfield, ?_⟩
  rw [List.getElem?_eq_getElem hmember, ← hname]

/-- **Field paths, written entries, walks and field lines agree.** A group that is written and read
again has its texts as leaves, under the field paths, entry by entry in the order of the fields; and
the lines for the fields of an entry tell the same paths. -/
theorem Group.paths_agree (g : Group α) (base : String) :
    ∃ n, Format.readJson Announced.toNode g.json = .ok n ∧
      ((Node.mapping [(base, n)]).leafPaths ".").map Prod.fst = g.fieldPaths base ∧
      ∀ (i : Fin g.entries.length) (j : Fin 4), ∃ field text path,
        (Entry.kind α).fields[j.val]? = some field ∧
        (Entry.members g.entries[i])[j.val]? = some (field.name, text) ∧
        ((Node.mapping [(base, n)]).leafPaths ".")[4 * i.val + j.val]? =
          some (path, .text text) ∧
        (fieldLines (Entry.kind α) base i)[j.val]? = some (path ++ "  " ++ field.label ++
          if field.multiline then " (multi-line)" else "") := by
  refine ⟨g.node, g.read_json, g.map_fst_leafPaths base, ?_⟩
  intro i j
  obtain ⟨field, text, hfield, hmember⟩ := Entry.exists_member g.entries[i] j.isLt
  refine ⟨field, text, fieldPath base i field.name, hfield, hmember, ?_, ?_⟩
  · have hsize : ∀ placed : α × Nat, (fieldTexts base placed.1 placed.2).length = 4 :=
      fun placed => length_fieldTexts base placed.1 placed.2
    have hplaced : g.entries.zipIdx[i.val]? = some (g.entries[i], i.val) := by simp
    rw [leafPaths_group, getElem?_flatMap_of_length hsize j.isLt, hplaced, Option.bind_some,
      fieldTexts, List.getElem?_map, hmember]
    rfl
  · rw [fieldLines, List.getElem?_map, hfield]
    rfl

end DepositForm
