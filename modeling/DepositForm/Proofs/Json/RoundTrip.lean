import DepositForm.Document.Format
import DepositForm.Proofs.Json.Depth
import DepositForm.Proofs.Json.Written

/-! # Which trees come back from JSON

A tree without floats that is written as JSON and read again comes back as it was just when it is
canonical and less deep than the limit. The tree is announced as what it holds; where the keys are
distinct, the entries gathered one after the other are the entries that were written, and nothing
else could change (`toNode_of_announces`). The other direction is about any text: a reader gives
canonical trees below the limit only. So what has been read, of whatever format, is not changed by
writing it as JSON and reading it again (`converted_as_read`).
-/
namespace DepositForm

open Node (itemDepth entryDepth)

/-- A scalar that is canonical is the leaf of its token. -/
theorem Scalar.leaf?_of_token? {s : Scalar} {t : Token} (ht : s.token? = some t)
    (h : (Node.leaf s).Canonical) : Announced.leaf? t = some s := by
  cases s with
  | integer i =>
    cases ht
    split
    · rfl
    · rw [Announced.leaf?, Scalar.ofUnsigned_toNat (by omega)]
  | unsigned u =>
    have hlarge : ¬ u.toNat < signedLimit := Nat.not_lt.mpr h
    cases ht
    simp [Announced.leaf?, Scalar.ofUnsigned, hlarge]
  | float x => cases ht
  | null | bool b | text s => cases ht; rfl

namespace Json

mutual
/-- **A canonical tree is read from its announcement** if there is room for its depth. -/
theorem toNode_of_announces : ∀ (n : Node) {depth : Nat} {a : Announced Fault},
    Announces depth n a → n.Canonical → n.depth + depth < depthLimit → a.toNode = .ok n
  | .leaf s, depth, a, h, hcanonical, _ => by
    obtain ⟨t, place, ht, rfl⟩ := h
    exact Announced.toNode_token_eq_ok.mpr ⟨s, Scalar.leaf?_of_token? ht hcanonical, rfl⟩
  | .sequence items, depth, a, h, hcanonical, hdepth => by
    obtain ⟨opening, limit, shown, rfl, hlimit, hshown⟩ := h
    rw [Node.depth] at hdepth
    have hitems := toNodes_of_announces items hshown hcanonical.2 (by omega)
    exact Announced.toNode_sequence_eq_ok.mpr ⟨hlimit (by omega), items, hitems, rfl⟩
  | .mapping [], depth, a, h, _, hdepth => by
    obtain ⟨opening, limit, shown, rfl, hlimit, place, rfl⟩ := h
    rw [Node.depth] at hdepth
    exact Announced.toNode_mapping_done_eq_ok.mpr ⟨hlimit (by omega), rfl⟩
  | .mapping ((key, n) :: rest), depth, a, h, hcanonical, hdepth => by
    obtain ⟨opening, limit, shown, rfl, hlimit, hshown⟩ := h
    obtain ⟨unread, place, after, value, more, rfl, hn, hmore⟩ := hshown
    obtain ⟨⟨hdistinct, hfirst⟩, hcanonical, hothers⟩ := hcanonical
    rw [Node.depth, entryDepth] at hdepth
    have hvalue := toNode_of_announces n hn hcanonical (by omega)
    have hentries := entries_of_announces rest [(key, n)] hmore hothers hdistinct (by omega)
    have hkey : key ≠ dateKey := fun h => hfirst (by simp [h])
    exact Announced.toNode_mapping_next_eq_ok.mpr
      ⟨hlimit (by omega), key, rfl, .inr ⟨hkey, n, _, hvalue, hentries, rfl⟩⟩

theorem toNodes_of_announces : ∀ (items : List Node) {depth : Nat} {shown : Announced.Items Fault},
    AnnouncesItems depth items shown → Node.ItemsEverywhere Node.Proper items →
    itemDepth items + depth < depthLimit → shown.toNodes = .ok items
  | [], depth, shown, h, _, _ => by
    obtain ⟨place, rfl⟩ := h
    rfl
  | n :: rest, depth, shown, h, hcanonical, hdepth => by
    obtain ⟨unread, item, more, rfl, hn, hmore⟩ := h
    rw [itemDepth] at hdepth
    have hitem := toNode_of_announces n hn hcanonical.1 (by omega)
    have hrest := toNodes_of_announces rest hmore hcanonical.2 (by omega)
    exact Announced.Items.toNodes_next_eq_ok.mpr ⟨n, rest, hitem, hrest, rfl⟩

/-- The entries still to come are put after those read so far, because no key is repeated. -/
theorem entries_of_announces : ∀ (entries soFar : List (String × Node)) {depth : Nat}
    {shown : Announced.Entries Fault}, AnnouncesEntries depth entries shown →
    Node.EntriesEverywhere Node.Proper entries → ((soFar ++ entries).map Prod.fst).Nodup →
    entryDepth entries + depth < depthLimit → shown.toNodes soFar = .ok (soFar ++ entries)
  | [], soFar, depth, shown, h, _, _, _ => by
    obtain ⟨place, rfl⟩ := h
    rw [Announced.Entries.toNodes, List.append_nil]
  | (key, n) :: rest, soFar, depth, shown, h, hcanonical, hdistinct, hdepth => by
    obtain ⟨unread, place, after, value, more, rfl, hn, hmore⟩ := h
    rw [entryDepth] at hdepth
    -- The key is new, so its entry is put behind those read so far.
    have hnew : key ∉ soFar.map Prod.fst := by
      rw [List.map_append, List.map_cons] at hdistinct
      intro hmem
      exact (List.nodup_append.mp hdistinct).2.2 key hmem key List.mem_cons_self rfl
    have hvalue := toNode_of_announces n hn hcanonical.1 (by omega)
    have hput : soFar ++ (key, n) :: rest = Node.put key n soFar ++ rest := by
      rw [Node.put_of_not_mem hnew, List.append_assoc, List.singleton_append]
    rw [hput] at hdistinct ⊢
    have hrest := entries_of_announces rest _ hmore hcanonical.2 hdistinct (by omega)
    exact Announced.Entries.toNodes_next_eq_ok.mpr ⟨key, n, rfl, hvalue, hrest⟩
end

/-- A written tree is announced as a whole document. -/
theorem announce_text {n : Node} (h : n.Floatless) :
    ∃ a, announce (text n) = ⟨a, none⟩ ∧ Announces 0 n a := by
  obtain ⟨v, hchars, hannounces⟩ := exists_source n h
  obtain ⟨a, ha, hshows⟩ := announce_document { body := v }
  rw [Padded.document_bare, hchars] at ha
  exact ⟨a, ha, hannounces hshows⟩

/-- A canonical tree below the limit comes back from its text. -/
theorem read_text {n : Node} (hfloat : n.Floatless) (hcanonical : n.Canonical)
    (hdepth : n.depth < depthLimit) : Format.readJson Announced.toNode (text n) = .ok n := by
  obtain ⟨a, ha, hannounces⟩ := announce_text hfloat
  refine mapError_eq_ok.mpr (read_eq_ok.mpr ?_)
  rw [ha]
  exact ⟨toNode_of_announces n hannounces hcanonical hdepth, rfl⟩

/-- **A tree without floats comes back from its text just when reading would not change it and the
limit allows its depth.** -/
theorem comes_back_iff_canonical {n : Node} (h : n.Floatless) :
    Format.readJson Announced.toNode (text n) = .ok n ↔ n.Canonical ∧ n.depth ≤ 127 := by
  constructor
  · intro hread
    have hread : read Announced.toNode (text n) = .ok n := mapError_eq_ok.mp hread
    have hdepth := depth_lt_of_read hread
    exact ⟨Announced.canonical_of_toNode _ (read_eq_ok.mp hread).1, Nat.le_of_lt_succ hdepth⟩
  · rintro ⟨hcanonical, hdepth⟩
    exact read_text h hcanonical (Nat.lt_succ_of_le hdepth)

/-- Control characters, quotes and the greatest word come back from below a list. -/
theorem comes_back_escaped :
    (Node.mapping [("\"\\\n", .sequence [.leaf (.unsigned 18446744073709551615), .leaf .null]),
      ("", .leaf (.text "\x01é"))]).Floatless ∧
    Format.readJson Announced.toNode (text (.mapping [
      ("\"\\\n", .sequence [.leaf (.unsigned 18446744073709551615), .leaf .null]),
      ("", .leaf (.text "\x01é"))])) =
        .ok (.mapping [
          ("\"\\\n", .sequence [.leaf (.unsigned 18446744073709551615), .leaf .null]),
          ("", .leaf (.text "\x01é"))]) :=
  ⟨by decide, (comes_back_iff_canonical (by decide)).mpr (by decide)⟩

/-! ## Trees that have been read -/

/-- Every format hands a document over as something announced. -/
theorem exists_announced {wording : Toml.Wording} {format : Format} {document : String} {n : Node}
    (h : format.read wording Announced.toNode document = .ok n) :
    ∃ (ε : Type) (a : Announced ε), a.toNode = .ok n := by
  cases format with
  | json => exact ⟨Fault, _, (read_eq_ok.mp (mapError_eq_ok.mp h)).1⟩
  | toml =>
    have h := mapError_eq_ok.mp h
    rw [Toml.read] at h
    cases ha : Toml.announce? document with
    | none => rw [ha] at h; cases h
    | some a =>
      rw [ha] at h
      exact ⟨Empty, a, mapError_eq_ok.mp h⟩

/-- What has been read of anything that is announced comes back from its JSON text. -/
theorem read_text_of_toNode {ε : Type} {a : Announced ε} {n : Node} (h : a.toNode = .ok n)
    (hfloat : n.Floatless) (hdepth : n.depth ≤ 127) :
    Format.readJson Announced.toNode (text n) = .ok n :=
  read_text hfloat (a.canonical_of_toNode h) (Nat.lt_succ_of_le hdepth)

/-- **A tree that has been read is canonical, and is the same after it has been written as JSON and
read again.** This holds of whatever is announced, and so of the documents of every format. Only
floats and nesting beyond the limit are excepted, and a JSON document has no such nesting. -/
theorem converted_as_read :
    (∀ (ε : Type) (a : Announced ε) (n : Node), a.toNode = .ok n →
      n.Canonical ∧ (n.Floatless → n.depth ≤ 127 →
        Format.readJson Announced.toNode (text n) = .ok n)) ∧
    (∀ (wording : Toml.Wording) (format : Format) (document : String) (n : Node),
      format.read wording Announced.toNode document = .ok n →
        n.Canonical ∧ (n.Floatless → n.depth ≤ 127 →
          Format.readJson Announced.toNode (text n) = .ok n)) ∧
    ∀ (document : String) (n : Node), Format.readJson Announced.toNode document = .ok n →
      n.depth ≤ 127 ∧ (n.Floatless → Format.readJson Announced.toNode (text n) = .ok n) := by
  refine ⟨fun ε a n h => ⟨a.canonical_of_toNode h, read_text_of_toNode h⟩, ?_, ?_⟩
  · intro wording format document n h
    obtain ⟨ε, a, ha⟩ := exists_announced h
    exact ⟨a.canonical_of_toNode ha, read_text_of_toNode ha⟩
  · intro document n h
    have ha := (read_eq_ok.mp (mapError_eq_ok.mp h)).1
    have hdepth := Nat.le_of_lt_succ (depth_lt_of_read (mapError_eq_ok.mp h))
    exact ⟨hdepth, fun hfloat => read_text_of_toNode ha hfloat hdepth⟩

/-- A repeated key, a date and a dotted key come through JSON as they have been read. -/
theorem converted_dated :
    let repeated : Announced Empty := .ofEntries [(.ofText "a", .ofText "1"),
      (.ofText "b", .ofItems []), (.ofText "a", .token (.unsigned 18446744073709551615) 0)]
    let n : Node :=
      .mapping [("a", .leaf (.unsigned 18446744073709551615)), ("b", .sequence [])]
    let person : Node := .mapping [("person",
      .mapping [("born", .leaf (.text "1979-05-27")), ("name", .leaf (.text "Ada"))])]
    (repeated.toNode = .ok n ∧ Format.readJson Announced.toNode (text n) = .ok n) ∧
      (∀ wording, Format.toml.read wording Announced.toNode
          "person.born = 1979-05-27\nperson.name = \"Ada\"\n" = .ok person) ∧
        Format.readJson Announced.toNode (text person) = .ok person := by
  intro repeated n person
  have hentries : Toml.entries? "person.born = 1979-05-27\nperson.name = \"Ada\"\n" =
      some [("person", .table false .dotted
        [("born", .moment "1979-05-27"), ("name", .token (.text "Ada"))])] := rfl
  have hdocument : ∀ wording, Format.toml.read wording Announced.toNode
      "person.born = 1979-05-27\nperson.name = \"Ada\"\n" = .ok person := by
    intro wording
    rw [Format.read, Format.readToml, Toml.read, Toml.announce?, hentries]
    rfl
  obtain ⟨hannounced, hread, -⟩ := converted_as_read
  have hrepeated := hannounced Empty repeated n rfl
  have hperson := hread (fun _ _ => "") .toml _ person (hdocument _)
  exact ⟨⟨rfl, hrepeated.2 (by decide) (by decide)⟩, hdocument,
    hperson.2 (by decide) (by decide)⟩

end Json
end DepositForm
