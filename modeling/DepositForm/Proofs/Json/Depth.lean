import DepositForm.Proofs.Document.Canonical
import DepositForm.Proofs.Json.Form

/-! # How deep a tree from JSON can be

A reader that enters containers meets a fault where too many are open, for the announcement carries
these faults (`Formed`). One that succeeds has met none of them; so the tree that it gives is less
deep than the limit (`depth_lt_of_read`).
-/
namespace DepositForm

namespace Node

/-- Items are as deep as the deepest of them. -/
theorem itemDepth_le_iff {items : List Node} {d : Nat} :
    itemDepth items ≤ d ↔ ∀ n ∈ items, n.depth ≤ d := by
  induction items with
  | nil => simp [itemDepth]
  | cons n rest ih => rw [itemDepth, Nat.max_le, ih, List.forall_mem_cons]

theorem entryDepth_le_iff {entries : List (String × Node)} {d : Nat} :
    entryDepth entries ≤ d ↔ ∀ e ∈ entries, e.2.depth ≤ d := by
  induction entries with
  | nil => simp [entryDepth]
  | cons e rest ih => rw [entryDepth, Nat.max_le, ih, List.forall_mem_cons]

end Node

namespace Json

/-! ## The reader meets it -/

mutual
theorem depth_le_of_toNode : ∀ (a : Announced Fault) {depth : Nat} {n : Node}, Formed depth a →
    a.toNode = .ok n → n.depth ≤ depthLimit - 1 - depth
  | .token t ending, depth, n, _, h => by
    obtain ⟨s, -, rfl⟩ := Announced.toNode_token_eq_ok.mp h
    exact Nat.zero_le _
  | .unreadable fault, depth, n, _, h => by simp [Announced.toNode] at h
  | .present inner, depth, n, hformed, _ => absurd hformed id
  | .wrapped inner, depth, n, hformed, _ => absurd hformed id
  | .sequence opening limit items, depth, n, hformed, h => by
    obtain ⟨hlimit, ns, hns, rfl⟩ := Announced.toNode_sequence_eq_ok.mp h
    have hdepth := hformed.1 hlimit
    have hitems := Node.itemDepth_le_iff.mpr (depth_le_of_toNodes items hformed.2 hns)
    rw [Node.depth]
    omega
  | .mapping opening limit (.done closing), depth, n, hformed, h => by
    obtain ⟨hlimit, rfl⟩ := Announced.toNode_mapping_done_eq_ok.mp h
    have hdepth := hformed.1 hlimit
    rw [Node.depth, Node.entryDepth]
    omega
  | .mapping opening limit (.next unread key afterKey value rest), depth, n, hformed, h => by
    obtain ⟨hlimit, k, -, ⟨-, s, -, -, rfl⟩ | ⟨-, v, es, hv, hes, rfl⟩⟩ :=
      Announced.toNode_mapping_next_eq_ok.mp h
    · exact Nat.zero_le _
    · have hdepth := hformed.1 hlimit
      have hvalue := depth_le_of_toNode value hformed.2.1 hv
      have hentries := Node.entryDepth_le_iff.mpr
        (entries_depth_le rest hformed.2.2 (by simpa using hvalue) hes)
      rw [Node.depth]
      omega
  | .mapping opening limit (.broken reading passing unread), depth, n, _, h =>
    absurd h Announced.toNode_mapping_broken
  | .broken reading passing, depth, n, _, h => by simp [Announced.toNode] at h

theorem depth_le_of_toNodes : ∀ (items : Announced.Items Fault) {depth : Nat} {ns : List Node},
    FormedItems depth items → items.toNodes = .ok ns →
    ∀ n ∈ ns, n.depth ≤ depthLimit - 1 - depth
  | .done closing, depth, ns, _, h => by
    rw [Announced.Items.toNodes] at h
    cases h
    simp
  | .next unread item rest, depth, ns, hformed, h => by
    obtain ⟨n, rest', hn, hrest, rfl⟩ := Announced.Items.toNodes_next_eq_ok.mp h
    intro n' hn'
    rcases List.mem_cons.mp hn' with rfl | hn'
    · exact depth_le_of_toNode item hformed.1 hn
    · exact depth_le_of_toNodes rest hformed.2 hrest n' hn'
  | .broken reading passing unread, depth, ns, _, h => by simp [Announced.Items.toNodes] at h

theorem entries_depth_le : ∀ (entries : Announced.Entries Fault) {depth : Nat}
    {soFar es : List (String × Node)}, FormedEntries depth entries →
    (∀ e ∈ soFar, e.2.depth ≤ depthLimit - 1 - depth) → entries.toNodes soFar = .ok es →
    ∀ e ∈ es, e.2.depth ≤ depthLimit - 1 - depth
  | .done closing, depth, soFar, es, _, hsoFar, h => by
    rw [Announced.Entries.toNodes] at h
    cases h
    exact hsoFar
  | .next unread key afterKey value rest, depth, soFar, es, hformed, hsoFar, h => by
    obtain ⟨k, n, -, hn, hrest⟩ := Announced.Entries.toNodes_next_eq_ok.mp h
    refine entries_depth_le rest hformed.2 ?_ hrest
    intro e he
    rcases Node.mem_put he with he | rfl
    · exact hsoFar e he
    · exact depth_le_of_toNode value hformed.1 hn
  | .broken reading passing unread, depth, soFar, es, _, _, h => by
    simp [Announced.Entries.toNodes] at h
end

/-- **Every tree that a JSON text gives is less deep than the limit.** -/
theorem depth_lt_of_read {text : String} {n : Node} (h : read Announced.toNode text = .ok n) :
    n.depth < depthLimit := by
  have hdepth := depth_le_of_toNode _ (formed_document text) (read_eq_ok.mp h).1
  unfold depthLimit at *
  omega

end Json
end DepositForm
