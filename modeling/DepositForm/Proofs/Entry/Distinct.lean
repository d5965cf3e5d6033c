import DepositForm.Proofs.Document.Following
import DepositForm.Proofs.Entry.Paths
import Mathlib.Data.List.ProdSigma

/-! # Field paths are unambiguous

The path of a field tells the group, the entry and the field. It has to be read from its end, as the
name of a group may be anything, also empty, or a path itself with dots and indices in it: what
follows the last dot is the field, because the name of a field has no dot; what then follows the
last dot is the index, because a number has none. Where no dot is left, the name of the group is
empty (`entryPath_inj`).

So the paths in a group are distinct, and no two groups share one unless they have the same name.
-/
namespace DepositForm

/-- What follows the last separator can be told from what is in front of it. -/
theorem append_cons_inj_of_last {α : Type} {separator : α} {front front' back back' : List α}
    (hback : separator ∉ back) (hback' : separator ∉ back')
    (h : front ++ separator :: back = front' ++ separator :: back') :
    front = front' ∧ back = back' := by
  -- A front that goes on takes a separator out of what follows the other one.
  rcases List.append_eq_append_iff.mp h with ⟨more, rfl, hmore⟩ | ⟨more, rfl, hmore⟩
  · cases more with
    | nil => exact ⟨(List.append_nil _).symm, (List.cons.inj hmore).2⟩
    | cons c more =>
      obtain ⟨-, rfl⟩ := List.cons.inj hmore
      exact absurd (List.mem_append_right _ List.mem_cons_self) hback
  · cases more with
    | nil => exact ⟨List.append_nil _, (List.cons.inj hmore).2.symm⟩
    | cons c more =>
      obtain ⟨-, rfl⟩ := List.cons.inj hmore
      exact absurd (List.mem_append_right _ List.mem_cons_self) hback'

/-! ## The path of an entry -/

/-- The path of the entry at `index` in the group under `base`. -/
def entryPath (base : String) (index : Nat) : String :=
  if base.isEmpty then toString index else base ++ "." ++ toString index

theorem toList_fieldPath (base : String) (index : Nat) (name : String) :
    (fieldPath base index name).toList = (entryPath base index).toList ++ '.' :: name.toList := by
  unfold fieldPath entryPath
  cases base.isEmpty <;> simp [String.toList_append]

theorem toList_entryPath {base : String} (h : base ≠ "") (index : Nat) :
    (entryPath base index).toList = base.toList ++ '.' :: (toString index).toList := by
  unfold entryPath
  simp [h, String.toList_append]

theorem dot_not_mem_toString (index : Nat) : '.' ∉ (toString index).toList := fun h =>
  absurd (Node.isDigit_of_mem_toString h) (by decide)

/-- A number can be read from its digits. -/
theorem toString_index_inj {i j : Nat} (h : toString i = toString j) : i = j := by
  have hread := congrArg Node.decimal? h
  rw [Node.decimal?_toString, Node.decimal?_toString] at hread
  exact Option.some.inj hread

/-- The path of an entry tells its group, which may have no name, and its index. -/
theorem entryPath_inj {base base' : String} {index index' : Nat}
    (h : entryPath base index = entryPath base' index') : base = base' ∧ index = index' := by
  have hchars := congrArg String.toList h
  by_cases hbase : base = ""
  · by_cases hbase' : base' = ""
    · subst hbase hbase'
      exact ⟨rfl, toString_index_inj h⟩
    · -- Only a group with a name puts a dot in front of the index.
      rw [toList_entryPath hbase'] at hchars
      subst hbase
      exact absurd (hchars ▸ List.mem_append_right _ List.mem_cons_self)
        (dot_not_mem_toString index)
  · by_cases hbase' : base' = ""
    · rw [toList_entryPath hbase] at hchars
      subst hbase'
      exact absurd (hchars ▸ List.mem_append_right _ List.mem_cons_self)
        (dot_not_mem_toString index')
    · rw [toList_entryPath hbase, toList_entryPath hbase'] at hchars
      obtain ⟨hfront, hback⟩ :=
        append_cons_inj_of_last (dot_not_mem_toString index) (dot_not_mem_toString index') hchars
      exact ⟨String.toList_inj.mp hfront, toString_index_inj (String.toList_inj.mp hback)⟩

/-- The path of a field tells the group, the index and the name, if the name has no dot. -/
theorem fieldPath_inj {base base' name name' : String} {index index' : Nat}
    (hname : '.' ∉ name.toList) (hname' : '.' ∉ name'.toList)
    (h : fieldPath base index name = fieldPath base' index' name') :
    base = base' ∧ index = index' ∧ name = name' := by
  have hchars := congrArg String.toList h
  rw [toList_fieldPath, toList_fieldPath] at hchars
  obtain ⟨hfront, hback⟩ := append_cons_inj_of_last hname hname' hchars
  obtain ⟨hbase, hindex⟩ := entryPath_inj (String.toList_inj.mp hfront)
  exact ⟨hbase, hindex, String.toList_inj.mp hback⟩

/-! ## The paths of a group -/

theorem EntryKind.dot_not_mem_name {kind : EntryKind} {field : Field} (h : field ∈ kind.fields) :
    '.' ∉ field.name.toList := by
  have hnames : ∀ kind : EntryKind, ∀ field ∈ kind.fields, '.' ∉ field.name.toList
    | .publication => by decide
    | .project => by decide
  exact hnames kind field h

namespace Group

variable {α β : Type} [Entry α] [Entry β]

/-- The paths are those of all pairs of an index and a field. -/
theorem fieldPaths_eq (g : Group α) (base : String) :
    g.fieldPaths base = (List.range g.length ×ˢ (Entry.kind α).fields.map Field.name).map
      fun place => fieldPath base place.1 place.2 := by
  change _ = (List.flatMap _ _).map _
  simp only [fieldPaths, List.map_flatMap, List.map_map]
  rfl

theorem mem_fieldPaths {g : Group α} {base path : String} (h : path ∈ g.fieldPaths base) :
    ∃ index, ∃ field ∈ (Entry.kind α).fields, path = fieldPath base index field.name := by
  obtain ⟨index, -, hpath⟩ := List.mem_flatMap.mp h
  obtain ⟨field, hfield, rfl⟩ := List.mem_map.mp hpath
  exact ⟨index, field, hfield, rfl⟩

theorem length_fieldPaths (g : Group α) (base : String) :
    (g.fieldPaths base).length = 4 * g.length := by
  rw [fieldPaths_eq, List.length_map, List.length_product, List.length_range, List.length_map,
    EntryKind.length_fields, Nat.mul_comm]

theorem nodup_fieldPaths (g : Group α) (base : String) : (g.fieldPaths base).Nodup := by
  rw [fieldPaths_eq]
  refine List.Nodup.map_on ?_ (List.nodup_range.product (Entry.kind α).names_proper.1)
  rintro ⟨i, name⟩ hi ⟨j, name'⟩ hj h
  obtain ⟨field, hfield, rfl⟩ := List.mem_map.mp (List.mem_product.mp hi).2
  obtain ⟨field', hfield', rfl⟩ := List.mem_map.mp (List.mem_product.mp hj).2
  obtain ⟨-, rfl, hname⟩ := fieldPath_inj (EntryKind.dot_not_mem_name hfield)
    (EntryKind.dot_not_mem_name hfield') h
  exact Prod.ext rfl hname

/-- **Field paths are unambiguous.** Two paths are the same only for the same group, index and name,
whatever the groups are called. So a group has four distinct paths for each entry, and groups of any
kinds that are called differently have no path in common. -/
theorem fieldPaths_unambiguous :
    (∀ {base base' name name' : String} {index index' : Nat}, '.' ∉ name.toList →
      '.' ∉ name'.toList → fieldPath base index name = fieldPath base' index' name' →
      base = base' ∧ index = index' ∧ name = name') ∧
    (∀ (g : Group α) (base : String),
      (g.fieldPaths base).length = 4 * g.length ∧ (g.fieldPaths base).Nodup) ∧
    ∀ (g : Group α) (g' : Group β) {base base' : String}, base ≠ base' →
      List.Disjoint (g.fieldPaths base) (g'.fieldPaths base') := by
  refine ⟨fieldPath_inj, fun g base => ⟨g.length_fieldPaths base, g.nodup_fieldPaths base⟩, ?_⟩
  intro g g' base base' hbase path hpath hpath'
  obtain ⟨index, field, hfield, rfl⟩ := mem_fieldPaths hpath
  obtain ⟨index', field', hfield', heq⟩ := mem_fieldPaths hpath'
  exact hbase (fieldPath_inj (EntryKind.dot_not_mem_name hfield)
    (EntryKind.dot_not_mem_name hfield') heq).1

/-- A group without a name, and one that is called like an index of it. -/
theorem fieldPaths_unambiguous_numbers :
    ('.' ∉ "title".toList ∧ fieldPath "0" 1 "title" = fieldPath "0" (0 + 1) "title" ∧
      ("0" = "0" ∧ 1 = 0 + 1 ∧ "title" = "title")) ∧
    ("" ≠ "0" ∧ List.Disjoint ((⟨[{}, {}]⟩ : Group Publication).fieldPaths "")
      ((⟨[{}, {}]⟩ : Group Project).fieldPaths "0")) := by
  obtain ⟨hinj, -, hdisjoint⟩ := fieldPaths_unambiguous (α := Publication) (β := Project)
  refine ⟨⟨by decide, rfl, ?_⟩, by decide, ?_⟩
  · exact hinj (by decide) (by decide) rfl
  · exact hdisjoint _ _ (by decide)

end Group
end DepositForm
