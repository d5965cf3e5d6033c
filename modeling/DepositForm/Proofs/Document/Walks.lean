import DepositForm.Proofs.Document.Paths
import DepositForm.Proofs.Storage.Loading

/-! # Walks that agree

A document can be walked with a state that is carried along, with the paths of its leaves, or by
listing its leaves; its leaves can be counted, and a file can be asked for its tree, its leaves or a
summary. All of this goes through the same leaves in the same order. The list of leaves is what the
walks are compared with: each of them is a fold over it (`visit_eq_foldl`, `visitPaths_eq_foldl`),
so that no later statement does an induction on trees.
-/
namespace DepositForm

namespace Node

variable {τ : Type} (f : τ → Scalar → τ)

mutual
/-- A walk calls its function on the leaves, first to last. -/
theorem visit_eq_foldl (s : τ) : ∀ n : Node, n.visit f s = n.leaves.foldl f s
  | leaf x => rfl
  | sequence items => by rw [visit, leaves, visitItems_eq_foldl s items]
  | mapping entries => by rw [visit, leaves, visitEntries_eq_foldl s entries]

theorem visitItems_eq_foldl (s : τ) : ∀ items : List Node,
    visitItems f s items = (itemLeaves items).foldl f s
  | [] => rfl
  | n :: rest => by
    rw [visitItems, itemLeaves, List.foldl_append, visit_eq_foldl s n, visitItems_eq_foldl _ rest]

theorem visitEntries_eq_foldl (s : τ) : ∀ entries : List (String × Node),
    visitEntries f s entries = (entryLeaves entries).foldl f s
  | [] => rfl
  | (_, n) :: rest => by
    rw [visitEntries, entryLeaves, List.foldl_append, visit_eq_foldl s n,
      visitEntries_eq_foldl _ rest]
end

theorem leafCount_eq_length (n : Node) : n.leafCount = n.leaves.length := by
  rw [leafCount, visit_eq_foldl, List.foldl_add_const]
  omega

/-- A function that does not look at paths is called as on a walk without them. -/
theorem visitPaths_ignoring (n : Node) (separator : String) (s : τ) :
    n.visitPaths separator (fun s _ x => f s x) s = n.leaves.foldl f s := by
  rw [visitPaths_eq_foldl, ← map_snd_routes n, List.foldl_map]

theorem map_snd_leafPaths (n : Node) (separator : String) :
    (n.leafPaths separator).map Prod.snd = n.leaves := by
  rw [leafPaths_eq, List.map_map, ← map_snd_routes n]
  rfl

end Node

/-! ## Lines -/

theorem length_leafLines (showPaths : Bool) (entries : List (String × Scalar)) :
    (leafLines showPaths entries).length = entries.length := List.length_map _

/-- A line with a path is the path before the line without it. -/
theorem leafLines_true (entries : List (String × Scalar)) :
    leafLines true entries =
      List.zipWith (fun entry line => entry.1 ++ " = " ++ line) entries
        (leafLines false entries) := by
  induction entries with
  | nil => rfl
  | cons entry rest ih =>
    have hrest : leafLines true (entry :: rest) =
        (entry.1 ++ " = " ++ entry.2.display) :: leafLines true rest := rfl
    rw [hrest, ih]
    rfl

/-! ## Files -/

/-- What a document's tree, its leaves with their paths and its summary have in common. -/
structure Agreeing (node : Node) (entries : List (String × Scalar)) (summary : Summary) : Prop where
  /-- The leaves are those of the tree, in its order. -/
  leaves : entries.map Prod.snd = node.leaves
  count : summary.leaves = entries.length
  depth : summary.depth = node.depth
  /-- There is a line per leaf, with paths or without. -/
  lines : ∀ showPaths, (leafLines showPaths entries).length = summary.leaves
  /-- A line with a path is the path before the line without it. -/
  paths : leafLines true entries =
    List.zipWith (fun entry line => entry.1 ++ " = " ++ line) entries (leafLines false entries)

theorem agreeing (node : Node) (separator : String) (path : Path) (format : Format) :
    Agreeing node (node.leafPaths separator)
      { path, format, leaves := node.leafCount, depth := node.depth } where
  leaves := node.map_snd_leafPaths separator
  count := by
    rw [Node.leafCount_eq_length, ← node.map_snd_leafPaths separator, List.length_map]
  depth := rfl
  lines showPaths := by
    rw [length_leafLines, Node.leafCount_eq_length, ← node.map_snd_leafPaths separator,
      List.length_map]
  paths := leafLines_true _

/-- **All ways of walking a document agree.** On a tree, a walk with any function and state, with or
without paths, is a fold over the leaves, and the count is their number. On a file, the tree, the
leaves and the summary cannot be had for the same reason, or they can all be had and agree; the
files stay as they are. -/
theorem Node.walks_agree {σ τ : Type} (n : Node) (f : τ → Scalar → τ) (s : τ) (separator : String)
    (files : Files σ) (wording : Toml.Wording) (st : σ) (path : Path) :
    n.visit f s = n.leaves.foldl f s ∧
    n.visitAll f s = n.leaves.foldl f s ∧
    n.leafCount = n.leaves.length ∧
    n.visitPaths separator (fun s _ x => f s x) s = n.leaves.foldl f s ∧
    (n.leafPaths separator).map Prod.snd = n.leaves ∧
    ((∃ fault, Finds st (files.storage.loadDocument wording path) (.error fault) ∧
        Finds st (files.storage.loadLeaves wording path separator) (.error fault) ∧
        Finds st (files.storage.summarize wording path) (.error fault)) ∨
      ∃ node entries summary, Finds st (files.storage.loadDocument wording path) (.ok node) ∧
        Finds st (files.storage.loadLeaves wording path separator) (.ok entries) ∧
        Finds st (files.storage.summarize wording path) (.ok summary) ∧
        Agreeing node entries summary) := by
  refine ⟨n.visit_eq_foldl f s, n.visit_eq_foldl f s, n.leafCount_eq_length,
    n.visitPaths_ignoring f separator s, n.map_snd_leafPaths separator, ?_⟩
  have hload := files.finds_loadDocument wording st path
  have hleaves := files.finds_loadLeaves wording st path separator
  have hsummary := files.finds_summarize wording st path
  -- All three are told by one reading of the document.
  cases hdocument : files.document wording st Announced.toNode path with
  | error fault =>
    rw [hdocument] at hload hleaves hsummary
    exact .inl ⟨fault, hload, hleaves, hsummary⟩
  | ok found =>
    obtain ⟨format, node⟩ := found
    rw [hdocument] at hload hleaves hsummary
    exact .inr ⟨node, _, _, hload, hleaves, hsummary, agreeing node separator path format⟩

end DepositForm
