import DepositForm.Announced.Value
import DepositForm.Document.Format
import DepositForm.Proofs.Document.Repeated
import DepositForm.Proofs.Document.Walks
import DepositForm.Proofs.Json.Form
import Mathlib

/-! # The shape of a document

A JSON text can be taken as it is, key for key (`toValue`). What it stands for has each key of an
object once (`merged`). A tree that is read from the text has the same shape: an object becomes a
mapping with its keys, an array a sequence with its items, and every other value a leaf, so that
leaves and values without parts are as many (`shape_kept`).

There is one exception, and it is not what a JSON text means by itself: an object that begins with
the key of dates is taken for a date. If it holds nothing else and a text under that key, it is a
leaf with the text (`date_is_leaf`); other such objects are left out here (`DatesAlone`).
-/
namespace DepositForm

/-! ## What a document stands for -/

namespace Value

mutual
/-- The value with each key of a table once: in its first place, with its last value. -/
def merged : Value → Value
  | token t => token t
  | list items => list (mergedItems items)
  | table entries => table (lastGiven (mergedEntries entries))

def mergedItems : List Value → List Value
  | [] => []
  | v :: rest => v.merged :: mergedItems rest

def mergedEntries : List (String × Value) → List (String × Value)
  | [] => []
  | (key, v) :: rest => (key, v.merged) :: mergedEntries rest
end

mutual
/-- A table that begins with the key of dates holds nothing but a text under it. -/
def DatesAlone : Value → Prop
  | token _ => True
  | list items => ItemsDatesAlone items
  | table entries =>
    ((entries.map Prod.fst).head? = some dateKey →
      ∃ s, entries = [(dateKey, token (.text s))]) ∧ EntriesDatesAlone entries

def ItemsDatesAlone : List Value → Prop
  | [] => True
  | v :: rest => v.DatesAlone ∧ ItemsDatesAlone rest

def EntriesDatesAlone : List (String × Value) → Prop
  | [] => True
  | (_, v) :: rest => v.DatesAlone ∧ EntriesDatesAlone rest
end

mutual
/-- The tree has the shape of the value: a list is a sequence, a table is a mapping with the same
keys, of which none comes twice, and a value without parts is a leaf. Only a date is a table and yet
a leaf. -/
def Shapes : Value → Node → Prop
  | token t, n => ∃ s, Announced.leaf? t = some s ∧ n = .leaf s
  | list items, n => ∃ ns, n = .sequence ns ∧ ItemsShape items ns
  | table entries, n =>
    (∃ s, entries = [(dateKey, token (.text s))] ∧ n = .leaf (.text s)) ∨
      ∃ es, n = .mapping es ∧ (es.map Prod.fst).Nodup ∧ EntriesShape entries es ∧
        (entries.map Prod.fst).head? ≠ some dateKey

def ItemsShape : List Value → List Node → Prop
  | [], ns => ns = []
  | v :: rest, ns => ∃ n more, ns = n :: more ∧ v.Shapes n ∧ ItemsShape rest more

def EntriesShape : List (String × Value) → List (String × Node) → Prop
  | [], es => es = []
  | (key, v) :: rest, es => ∃ n more, es = (key, n) :: more ∧ v.Shapes n ∧ EntriesShape rest more
end

theorem entriesShape_iff {entries : List (String × Value)} {es : List (String × Node)} :
    EntriesShape entries es ↔ Correspond Shapes entries es := by
  induction entries generalizing es with
  | nil => exact List.forall₂_nil_left_iff.symm
  | cons e rest ih =>
    refine Iff.trans ?_ List.forall₂_cons_left_iff.symm
    constructor
    · rintro ⟨n, more, rfl, hn, hmore⟩
      exact ⟨_, more, ⟨rfl, hn⟩, ih.mp hmore, rfl⟩
    · rintro ⟨⟨_, n⟩, more, ⟨rfl, hn⟩, hmore, rfl⟩
      exact ⟨n, more, rfl, hn, ih.mpr hmore⟩

mutual
/-- **A tree has as many leaves as a value of its shape has values without parts.** -/
theorem length_leaves_of_shapes : ∀ (v : Value) {n : Node}, v.Shapes n →
    n.leaves.length = v.tokenCount
  | token t, n, h => by
    obtain ⟨s, -, rfl⟩ := h
    rfl
  | list items, n, h => by
    obtain ⟨ns, rfl, hitems⟩ := h
    exact length_itemLeaves_of_shape items hitems
  | table entries, n, h => by
    rcases h with ⟨s, rfl, rfl⟩ | ⟨es, rfl, -, hentries, -⟩
    · rfl
    · exact length_entryLeaves_of_shape entries hentries

theorem length_itemLeaves_of_shape : ∀ (items : List Value) {ns : List Node},
    ItemsShape items ns → (Node.itemLeaves ns).length = itemTokens items
  | [], ns, h => by
    cases h
    rfl
  | v :: rest, ns, h => by
    obtain ⟨n, more, rfl, hn, hmore⟩ := h
    rw [Node.itemLeaves, List.length_append, length_leaves_of_shapes v hn,
      length_itemLeaves_of_shape rest hmore, itemTokens]

theorem length_entryLeaves_of_shape : ∀ (entries : List (String × Value))
    {es : List (String × Node)}, EntriesShape entries es →
    (Node.entryLeaves es).length = entryTokens entries
  | [], es, h => by
    cases h
    rfl
  | (key, v) :: rest, es, h => by
    obtain ⟨n, more, rfl, hn, hmore⟩ := h
    rw [Node.entryLeaves, List.length_append, length_leaves_of_shapes v hn,
      length_entryLeaves_of_shape rest hmore, entryTokens]
end

theorem keys_mergedEntries (entries : List (String × Value)) :
    (mergedEntries entries).map Prod.fst = entries.map Prod.fst := by
  induction entries with
  | nil => rfl
  | cons e rest ih => rw [mergedEntries, List.map_cons, List.map_cons, ih]

/-- Entries that are taken one after the other come to a mapping of the shape of what they stand
for. -/
theorem shapes_mapping {entries : List (String × Value)} {es : List (String × Node)}
    (h : EntriesShape (mergedEntries entries) es)
    (hfirst : (entries.map Prod.fst).head? ≠ some dateKey) :
    (table entries).merged.Shapes (.mapping (lastGiven es)) := by
  rw [merged, Shapes]
  refine .inr ⟨_, rfl, nodup_keys_lastGiven es, ?_, ?_⟩
  · exact entriesShape_iff.mpr (correspond_lastGiven (entriesShape_iff.mp h))
  · rwa [head?_keys_lastGiven, keys_mergedEntries]

end Value

/-! ## What has been taken as it is -/

namespace Json

/-- Every token of a text makes a leaf. -/
theorem exists_leaf_of_usual {t : Token} (h : Usual t) : ∃ s, Announced.leaf? t = some s := by
  cases t with
  | absent | unit => exact ⟨_, rfl⟩
  | null | bool b | signed i | unsigned u | float x | text s => exact ⟨_, rfl⟩
  | char c | wideSigned i | wideUnsigned n | bytes b => exact absurd h id

/-- A text that has been taken as it is can be read as a text. -/
theorem toText_of_toValue {a : Announced Fault} {depth : Nat} {s : String}
    (hformed : Formed depth a) (h : a.toValue = .ok (.token (.text s))) : a.toText = .ok s := by
  cases a with
  | token t ending =>
    cases h
    rfl
  | unreadable fault => cases h
  | present inner | wrapped inner => exact absurd hformed id
  | sequence opening limit items =>
    obtain ⟨-, vs, -, he⟩ := Announced.toValue_sequence_eq_ok.mp h
    cases he
  | mapping opening limit entries =>
    obtain ⟨-, vs, -, he⟩ := Announced.toValue_mapping_eq_ok.mp h
    cases he
  | broken reading passing => cases h

mutual
/-- **What can be taken as it is can be read as a tree of its shape**, if dates stand alone. -/
theorem toNode_of_toValue : ∀ (a : Announced Fault) {depth : Nat} {v : Value}, Formed depth a →
    a.toValue = .ok v → v.DatesAlone → ∃ n, a.toNode = .ok n ∧ v.merged.Shapes n
  | .token t ending, depth, v, hformed, h, _ => by
    cases h
    obtain ⟨s, hs⟩ := exists_leaf_of_usual hformed
    exact ⟨.leaf s, Announced.toNode_token_eq_ok.mpr ⟨s, hs, rfl⟩, s, hs, rfl⟩
  | .unreadable fault, depth, v, _, h, _ => by cases h
  | .present inner, depth, v, hformed, _, _ => absurd hformed id
  | .wrapped inner, depth, v, hformed, _, _ => absurd hformed id
  | .sequence opening limit items, depth, v, hformed, h, hdates => by
    obtain ⟨hlimit, vs, hvs, rfl⟩ := Announced.toValue_sequence_eq_ok.mp h
    obtain ⟨ns, hns, hshape⟩ := toNodes_of_toValues items hformed.2 hvs hdates
    exact ⟨.sequence ns, Announced.toNode_sequence_eq_ok.mpr ⟨hlimit, ns, hns, rfl⟩,
      ns, rfl, hshape⟩
  | .mapping opening limit (.done closing), depth, v, _, h, _ => by
    obtain ⟨hlimit, vs, hvs, rfl⟩ := Announced.toValue_mapping_eq_ok.mp h
    cases hvs
    exact ⟨.mapping [], Announced.toNode_mapping_done_eq_ok.mpr ⟨hlimit, rfl⟩,
      @Value.shapes_mapping [] [] rfl (by simp)⟩
  | .mapping opening limit (.next unread key afterKey value rest), depth, v, hformed, h,
      hdates => by
    obtain ⟨hlimit, vs, hvs, rfl⟩ := Announced.toValue_mapping_eq_ok.mp h
    obtain ⟨k, w, ws, hk, hw, hws, rfl⟩ := Announced.Entries.toValues_next_eq_ok.mp hvs
    by_cases hkey : k = dateKey
    · -- The date stands alone, so nothing is left unread.
      obtain ⟨s, hs⟩ := hdates.1 (by simp [hkey])
      cases hs
      have htext := toText_of_toValue hformed.2.1 hw
      have hrest := Announced.Entries.done_of_toValues hws
      exact ⟨.leaf (.text s), Announced.toNode_mapping_next_eq_ok.mpr
        ⟨hlimit, dateKey, hk, .inl ⟨rfl, s, htext, hrest, rfl⟩⟩, .inl ⟨s, rfl, rfl⟩⟩
    · obtain ⟨n, hn, hshape⟩ := toNode_of_toValue value hformed.2.1 hw hdates.2.1
      obtain ⟨es, hes, hrest⟩ := entries_of_toValues rest hformed.2.2 hws hdates.2.2
      refine ⟨.mapping (lastGiven ((k, n) :: es)), Announced.toNode_mapping_next_eq_ok.mpr
        ⟨hlimit, k, hk, .inr ⟨hkey, n, _, hn, hrest _, ?_⟩⟩, Value.shapes_mapping ?_ ?_⟩
      · exact congrArg Node.mapping (putAll_nil _).symm
      · exact ⟨n, es, rfl, hshape, hes⟩
      · simpa using hkey
  | .mapping opening limit (.broken reading passing unread), depth, v, _, h, _ => by
    obtain ⟨-, vs, hvs, -⟩ := Announced.toValue_mapping_eq_ok.mp h
    cases hvs
  | .broken reading passing, depth, v, _, h, _ => by cases h

theorem toNodes_of_toValues : ∀ (items : Announced.Items Fault) {depth : Nat} {vs : List Value},
    FormedItems depth items → items.toValues = .ok vs → Value.ItemsDatesAlone vs →
    ∃ ns, items.toNodes = .ok ns ∧ Value.ItemsShape (Value.mergedItems vs) ns
  | .done closing, depth, vs, _, h, _ => by
    cases h
    exact ⟨[], rfl, rfl⟩
  | .next unread item rest, depth, vs, hformed, h, hdates => by
    obtain ⟨v, ws, hv, hws, rfl⟩ := Announced.Items.toValues_next_eq_ok.mp h
    obtain ⟨n, hn, hshape⟩ := toNode_of_toValue item hformed.1 hv hdates.1
    obtain ⟨ns, hns, hrest⟩ := toNodes_of_toValues rest hformed.2 hws hdates.2
    exact ⟨n :: ns, Announced.Items.toNodes_next_eq_ok.mpr ⟨n, ns, hn, hns, rfl⟩,
      n, ns, rfl, hshape, hrest⟩
  | .broken reading passing unread, depth, vs, _, h, _ => by cases h

/-- Entries are read whatever came before them. -/
theorem entries_of_toValues : ∀ (entries : Announced.Entries Fault) {depth : Nat}
    {vs : List (String × Value)}, FormedEntries depth entries → entries.toValues = .ok vs →
    Value.EntriesDatesAlone vs → ∃ es, Value.EntriesShape (Value.mergedEntries vs) es ∧
      ∀ soFar, entries.toNodes soFar = .ok (Node.putAll soFar es)
  | .done closing, depth, vs, _, h, _ => by
    cases h
    exact ⟨[], rfl, fun _ => rfl⟩
  | .next unread key afterKey value rest, depth, vs, hformed, h, hdates => by
    obtain ⟨k, w, ws, hk, hw, hws, rfl⟩ := Announced.Entries.toValues_next_eq_ok.mp h
    obtain ⟨n, hn, hshape⟩ := toNode_of_toValue value hformed.1 hw hdates.1
    obtain ⟨es, hes, hrest⟩ := entries_of_toValues rest hformed.2 hws hdates.2
    exact ⟨(k, n) :: es, ⟨n, es, rfl, hshape, hes⟩, fun soFar =>
      Announced.Entries.toNodes_next_eq_ok.mpr ⟨k, n, hk, hn, hrest _⟩⟩
  | .broken reading passing unread, depth, vs, _, h, _ => by cases h
end

/-- **A tree that is read from a JSON text has the shape of what the text stands for.** Every text
that can be taken as it is can be read as a tree, if objects that begin with the key of dates hold
nothing but a text under it. -/
theorem shape_kept {text : String} {v : Value} (h : read Announced.toValue text = .ok v)
    (hdates : v.DatesAlone) :
    ∃ n, Format.readJson Announced.toNode text = .ok n ∧ v.merged.Shapes n ∧
      n.leafCount = v.merged.tokenCount := by
  obtain ⟨hvalue, htrailing⟩ := read_eq_ok.mp h
  obtain ⟨n, hn, hshape⟩ := toNode_of_toValue _ (formed_document text) hvalue hdates
  refine ⟨n, mapError_eq_ok.mpr (read_eq_ok.mpr ⟨hn, htrailing⟩), hshape, ?_⟩
  rw [Node.leafCount_eq_length, Value.length_leaves_of_shapes _ hshape]

/-- A document with a repeated key, an empty array, and a date below an array. -/
def datedText : String :=
  "\x7b\"a\":1,\"b\":[null,\x7b\"$__toml_private_datetime\":\"1979-05-27\"\x7d],\"a\":[]\x7d"

/-- The same document, taken as it is. -/
def datedValue : Value :=
  .table [("a", .token (.unsigned 1)),
    ("b", .list [.token .null, .table [(dateKey, .token (.text "1979-05-27"))]]), ("a", .list [])]

/-- The first of the three entries does not count, and the date is a leaf beside null. -/
theorem shape_kept_dated :
    (read Announced.toValue datedText = .ok datedValue ∧ datedValue.DatesAlone) ∧
      ∃ n, Format.readJson Announced.toNode datedText = .ok n ∧ datedValue.merged.Shapes n ∧
        n.leafCount = 2 := by
  have hread : read Announced.toValue datedText = .ok datedValue := by
    unfold datedText datedValue
    cbv
  have hdates : datedValue.DatesAlone :=
    ⟨fun h => absurd h (by decide), trivial,
      ⟨trivial, ⟨fun _ => ⟨_, rfl⟩, trivial, trivial⟩, trivial⟩, trivial, trivial⟩
  obtain ⟨n, hn, hshape, hcount⟩ := shape_kept hread hdates
  exact ⟨⟨hread, hdates⟩, n, hn, hshape, hcount⟩

/-- An object with the key of dates. -/
def dateText : String := "\x7b\"$__toml_private_datetime\":\"1979-05-27\"\x7d"

/-- An object that begins with the key of dates becomes no mapping but a leaf. -/
theorem date_is_leaf :
    read Announced.toValue dateText = .ok (.table [(dateKey, .token (.text "1979-05-27"))]) ∧
      Format.readJson Announced.toNode dateText = .ok (.leaf (.text "1979-05-27")) ∧
      ∀ es, Format.readJson Announced.toNode dateText ≠ .ok (.mapping es) := by
  have hvalue : read Announced.toValue dateText =
      .ok (.table [(dateKey, .token (.text "1979-05-27"))]) := by
    unfold dateText
    cbv
  have hnode : Format.readJson Announced.toNode dateText = .ok (.leaf (.text "1979-05-27")) := by
    unfold dateText
    exact mapError_eq_ok.mpr (by cbv)
  refine ⟨hvalue, hnode, fun es h => ?_⟩
  cases hnode.symm.trans h

end Json
end DepositForm
