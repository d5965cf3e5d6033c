import DepositForm.Proofs.Document.Canonical
import DepositForm.Proofs.Document.Paths
import DepositForm.Proofs.Document.Repeated
import Mathlib.Data.List.Nodup

/-! # Following the path of a leaf

The path of a leaf says where it is. Cut at the separator, it is the route to the leaf again, and
the route followed from the root ends at that leaf and at no other.

This holds for a separator of one character under two conditions. `Keyed` is the one on the
document: the keys of a mapping are distinct, not empty, and free of the separator. The other is
that the separator is no digit, so that it does not stand in an index either. Each part is needed:
an empty key at the front leaves no trace in a path, a repeated key leads to its first value only,
and a separator within a segment cuts it in two.

* `spots` lists the leaves with their addresses, which are the places of the children on the way
  down; so no two leaves have the same address (`nodup_spots`).
* `follow` goes down by segments and tells the address it came to. On the routes of a document it
  comes to the addresses of the leaves, one after the other (`follows`); here the keys count as
  distinct.
* A path is cut into its route (`pieces_routeText`); here the segments count as sound.
* Paths are distinct because what they are followed to is (`paths_lead_to_leaves`).
-/
namespace DepositForm.Node

/-! ## Addresses -/

/-- A leaf below the child at `place`. -/
def spotUnder (place : Nat) (spot : List Nat × Scalar) : List Nat × Scalar :=
  (place :: spot.1, spot.2)

mutual
/-- All leaves in document order, each with its address: the places of the children that lead to it
from the root. -/
def spots : Node → List (List Nat × Scalar)
  | leaf x => [([], x)]
  | sequence items => itemSpots 0 items
  | mapping entries => entrySpots 0 entries

/-- The leaves below items, the first of which is at `place`. -/
def itemSpots (place : Nat) : List Node → List (List Nat × Scalar)
  | [] => []
  | n :: rest => n.spots.map (spotUnder place) ++ itemSpots (place + 1) rest

def entrySpots (place : Nat) : List (String × Node) → List (List Nat × Scalar)
  | [] => []
  | (_, n) :: rest => n.spots.map (spotUnder place) ++ entrySpots (place + 1) rest
end

/-- Addresses that are distinct, and begin at `place` or later. -/
structure Apart (place : Nat) (addresses : List (List Nat)) : Prop where
  nodup : addresses.Nodup
  below : ∀ address ∈ addresses, ∃ first rest, address = first :: rest ∧ place ≤ first

theorem Apart.nil (place : Nat) : Apart place [] := ⟨List.nodup_nil, by simp⟩

theorem map_fst_spotUnder (place : Nat) (found : List (List Nat × Scalar)) :
    (found.map (spotUnder place)).map Prod.fst = (found.map Prod.fst).map (place :: ·) := by
  simp [spotUnder, Function.comp_def]

/-- The addresses below one child are apart from those below the later ones. -/
theorem Apart.cons {place : Nat} {child later : List (List Nat × Scalar)}
    (hchild : (child.map Prod.fst).Nodup) (hlater : Apart (place + 1) (later.map Prod.fst)) :
    Apart place ((child.map (spotUnder place) ++ later).map Prod.fst) := by
  rw [List.map_append, map_fst_spotUnder]
  constructor
  · refine List.nodup_append'.mpr
      ⟨hchild.map fun _ _ h => (List.cons.inj h).2, hlater.nodup, fun address hhere hthere => ?_⟩
    obtain ⟨rest, -, rfl⟩ := List.mem_map.mp hhere
    obtain ⟨first, rest', heq, hle⟩ := hlater.below _ hthere
    obtain ⟨rfl, -⟩ := List.cons.inj heq
    omega
  · intro address h
    rcases List.mem_append.mp h with h | h
    · obtain ⟨rest, -, rfl⟩ := List.mem_map.mp h
      exact ⟨place, rest, rfl, Nat.le_refl _⟩
    · obtain ⟨first, rest, heq, hle⟩ := hlater.below _ h
      exact ⟨first, rest, heq, by omega⟩

mutual
/-- No two leaves have the same address. -/
theorem nodup_spots : ∀ n : Node, (n.spots.map Prod.fst).Nodup
  | leaf x => by simp [spots]
  | sequence items => (apart_itemSpots 0 items).nodup
  | mapping entries => (apart_entrySpots 0 entries).nodup

theorem apart_itemSpots (place : Nat) : ∀ items : List Node,
    Apart place ((itemSpots place items).map Prod.fst)
  | [] => .nil place
  | n :: rest => .cons (nodup_spots n) (apart_itemSpots (place + 1) rest)

theorem apart_entrySpots (place : Nat) : ∀ entries : List (String × Node),
    Apart place ((entrySpots place entries).map Prod.fst)
  | [] => .nil place
  | (_, n) :: rest => .cons (nodup_spots n) (apart_entrySpots (place + 1) rest)
end

/-! ## Going down by segments -/

/-- The number that a segment is in decimal. -/
def decimal? (segment : String) : Option Nat :=
  if segment ≠ "" ∧ segment.toList.all Char.isDigit then
    some (Nat.ofDigitChars 10 segment.toList 0)
  else none

/-- The child that a segment names, and its place: the value under the key in a mapping, the item
with the decimal index in a sequence. -/
def child? : Node → String → Option (Nat × Node)
  | leaf _, _ => none
  | sequence items, segment =>
    (decimal? segment).bind fun index => items[index]?.map fun item => (index, item)
  | n@(mapping entries), key =>
    (n.get? key).map fun value => ((entries.map Prod.fst).idxOf key, value)

/-- Goes down by segments: the address of the node they lead to, and that node. -/
def follow : Node → List String → Option (List Nat × Node)
  | n, [] => some ([], n)
  | n, segment :: rest =>
    (n.child? segment).bind fun (place, child) =>
      (child.follow rest).map fun (address, found) => (place :: address, found)

/-- Routes that lead from a node to leaves at some addresses, one after the other. -/
def Follows (n : Node) (routes : List (List String × Scalar)) (spots : List (List Nat × Scalar)) :
    Prop :=
  routes.map (fun route => (n.follow route.1, route.2)) =
    spots.map fun spot => (some (spot.1, leaf spot.2), spot.2)

/-- One segment down, the routes of a child are followed as from the child. -/
theorem Follows.under {parent child : Node} {segment : String} {place : Nat}
    {routes : List (List String × Scalar)} {spots : List (List Nat × Scalar)}
    (hchild : parent.child? segment = some (place, child)) (h : child.Follows routes spots) :
    parent.Follows (routes.map (routeUnder segment)) (spots.map (spotUnder place)) := by
  let deeper : Option (List Nat × Node) × Scalar → Option (List Nat × Node) × Scalar :=
    fun found => (found.1.map fun (address, n) => (place :: address, n), found.2)
  have hdeeper := congrArg (List.map deeper) h
  simpa [Follows, routeUnder, spotUnder, follow, hchild, deeper, Function.comp_def] using hdeeper

theorem Follows.append {n : Node} {routes routes' : List (List String × Scalar)}
    {spots spots' : List (List Nat × Scalar)} (h : n.Follows routes spots)
    (h' : n.Follows routes' spots') : n.Follows (routes ++ routes') (spots ++ spots') := by
  unfold Follows at h h' ⊢
  rw [List.map_append, List.map_append, h, h']

theorem isDigit_of_mem_toString {index : Nat} {c : Char} (h : c ∈ (toString index).toList) :
    c.isDigit = true :=
  Nat.isDigit_of_mem_toDigits (by decide) (by decide) (@Nat.toList_repr index ▸ h)

theorem toString_ne_empty (index : Nat) : toString index ≠ "" := by
  rw [← String.toList_inj.ne, Nat.toString_eq_repr, Nat.toList_repr]
  exact Nat.toDigits_ne_nil

theorem decimal?_toString (index : Nat) : decimal? (toString index) = some index := by
  have hdigits : (toString index).toList.all Char.isDigit = true :=
    List.all_eq_true.mpr fun _ => isDigit_of_mem_toString
  rw [decimal?, if_pos ⟨toString_ne_empty index, hdigits⟩, Nat.toString_eq_repr, Nat.toList_repr,
    Nat.ofDigitChars_ten_toDigits]

theorem child?_sequence (front : List Node) (n : Node) (rest : List Node) :
    (sequence (front ++ n :: rest)).child? (toString front.length) = some (front.length, n) := by
  rw [child?, decimal?_toString]
  simp

/-- A key that does not stand before leads to its value. -/
theorem child?_mapping {front : List (String × Node)} {key : String}
    (h : key ∉ front.map Prod.fst) (n : Node) (rest : List (String × Node)) :
    (mapping (front ++ (key, n) :: rest)).child? key = some (front.length, n) := by
  have hfront : front.lookup key = none := lookup_eq_none.mpr h
  have hplace : ((front ++ (key, n) :: rest).map Prod.fst).idxOf key = front.length := by
    rw [List.map_append, List.idxOf_append_of_notMem h, List.map_cons, List.idxOf_cons_self,
      List.length_map, Nat.add_zero]
  rw [child?, hplace]
  simp [get?, List.lookup_append, hfront]

/-! ## Keys -/

/-- A segment that stays whole in a path: it is seen, and the separator does not cut it. -/
def Sound (separator : Char) (segment : String) : Prop :=
  segment ≠ "" ∧ separator ∉ segment.toList

instance (separator : Char) : DecidablePred (Sound separator) :=
  fun _ => inferInstanceAs (Decidable (_ ∧ _))

/-- A mapping has distinct keys that stay whole in a path. -/
def Keyed (separator : Char) : Node → Prop
  | mapping entries =>
    (entries.map Prod.fst).Nodup ∧ ∀ key ∈ entries.map Prod.fst, Sound separator key
  | _ => True

instance (separator : Char) : DecidablePred (Keyed separator)
  | leaf _ => .isTrue trivial
  | sequence _ => .isTrue trivial
  | mapping entries => inferInstanceAs
    (Decidable ((entries.map Prod.fst).Nodup ∧ ∀ key ∈ entries.map Prod.fst, Sound separator key))

section Keyed
variable {separator : Char}

mutual
/-- **The routes of a document lead to its leaves**, to the first from the first route, and so on.
In a container the children before the one at hand are `front`. -/
theorem follows : ∀ {n : Node}, n.Everywhere (Keyed separator) → n.Follows n.routes n.spots
  | leaf _, _ => rfl
  | sequence _, h => follows_items [] h.2
  | mapping _, h => follows_entries [] h.1.1 h.2

theorem follows_items (front : List Node) : ∀ {rest : List Node},
    ItemsEverywhere (Keyed separator) rest →
    (sequence (front ++ rest)).Follows (itemRoutes front.length rest) (itemSpots front.length rest)
  | [], _ => rfl
  | n :: rest, h => by
    have hrest := follows_items (front ++ [n]) h.2
    rw [List.append_assoc, List.singleton_append, List.length_append, List.length_singleton]
      at hrest
    exact ((follows h.1).under (child?_sequence front n rest)).append hrest

theorem follows_entries (front : List (String × Node)) : ∀ {rest : List (String × Node)},
    ((front ++ rest).map Prod.fst).Nodup → EntriesEverywhere (Keyed separator) rest →
    (mapping (front ++ rest)).Follows (entryRoutes rest) (entrySpots front.length rest)
  | [], _, _ => rfl
  | (key, n) :: rest, hkeys, h => by
    have hrest := follows_entries (front ++ [(key, n)])
      (by rwa [List.append_assoc, List.singleton_append]) h.2
    rw [List.append_assoc, List.singleton_append, List.length_append, List.length_singleton]
      at hrest
    have hkey : key ∉ front.map Prod.fst := by
      rw [List.map_append, List.nodup_append'] at hkeys
      exact fun hmem => hkeys.2.2 hmem (by simp)
    exact ((follows h.1).under (child?_mapping hkey n rest)).append hrest
end

/-! ## Cutting a path -/

/-- The pieces of a path between the separators. -/
def pieces (separator : Char) (path : String) : List String :=
  (path.toList.splitOn separator).map String.ofList

/-- **A path is cut into the segments it was made of**, if there are any. -/
theorem pieces_routeText {segments : List String} (hsound : ∀ s ∈ segments, Sound separator s)
    (hne : segments ≠ []) :
    pieces separator (routeText (String.singleton separator) segments) = segments := by
  -- No segment is empty, so none at the front is left out of the path.
  have hdrop : segments.dropWhile String.isEmpty = segments := by
    cases segments with
    | nil => rfl
    | cons first rest =>
      exact List.dropWhile_cons_of_neg (by simpa using (hsound first (by simp)).1)
  have hfree : ∀ s ∈ segments.map String.toList, separator ∉ s := by
    simpa using fun s hs => (hsound s hs).2
  rw [pieces, routeText, hdrop, String.toList_intercalate, String.toList_singleton,
    List.splitOn_intercalate separator hfree (by simpa using hne), List.map_map]
  simp [Function.comp_def]

theorem sound_toString (hdigit : separator.isDigit = false) (index : Nat) :
    Sound separator (toString index) := by
  refine ⟨toString_ne_empty index, fun hmem => ?_⟩
  rw [isDigit_of_mem_toString hmem] at hdigit
  cases hdigit

/-- All segments on some routes stay whole in a path. -/
def SoundRoutes (separator : Char) (routes : List (List String × Scalar)) : Prop :=
  ∀ route ∈ routes, ∀ segment ∈ route.1, Sound separator segment

theorem SoundRoutes.cons {segment : String} {below later : List (List String × Scalar)}
    (hsegment : Sound separator segment) (hbelow : SoundRoutes separator below)
    (hlater : SoundRoutes separator later) :
    SoundRoutes separator (below.map (routeUnder segment) ++ later) := by
  intro route h
  rcases List.mem_append.mp h with h | h
  · obtain ⟨route, hroute, rfl⟩ := List.mem_map.mp h
    exact List.forall_mem_cons.mpr ⟨hsegment, hbelow route hroute⟩
  · exact hlater route h

mutual
/-- Every segment on a route stays whole: a key by assumption, an index because it is all digits. -/
theorem sound_routes (hdigit : separator.isDigit = false) : ∀ {n : Node},
    n.Everywhere (Keyed separator) → SoundRoutes separator n.routes
  | leaf _, _ => by simp [routes, SoundRoutes]
  | sequence _, h => sound_itemRoutes hdigit 0 h.2
  | mapping _, h => sound_entryRoutes hdigit h.1.2 h.2

theorem sound_itemRoutes (hdigit : separator.isDigit = false) (index : Nat) :
    ∀ {items : List Node}, ItemsEverywhere (Keyed separator) items →
    SoundRoutes separator (itemRoutes index items)
  | [], _ => by simp [itemRoutes, SoundRoutes]
  | _ :: _, h =>
    .cons (sound_toString hdigit index) (sound_routes hdigit h.1)
      (sound_itemRoutes hdigit (index + 1) h.2)

theorem sound_entryRoutes (hdigit : separator.isDigit = false) :
    ∀ {entries : List (String × Node)}, (∀ key ∈ entries.map Prod.fst, Sound separator key) →
    EntriesEverywhere (Keyed separator) entries → SoundRoutes separator (entryRoutes entries)
  | [], _, _ => by simp [entryRoutes, SoundRoutes]
  | (key, _) :: _, hkeys, h =>
    .cons (hkeys key (by simp)) (sound_routes hdigit h.1)
      (sound_entryRoutes hdigit (fun key hkey => hkeys key (by simp [hkey])) h.2)
end

end Keyed

/-! ## From paths to leaves -/

section Container

theorem routeUnder_ne_nil {segment : String} {found : List (List String × Scalar)} :
    ∀ route ∈ found.map (routeUnder segment), route.1 ≠ [] := by
  intro route h
  obtain ⟨route, -, rfl⟩ := List.mem_map.mp h
  exact List.cons_ne_nil _ _

theorem itemRoutes_ne_nil (index : Nat) : ∀ items : List Node,
    ∀ route ∈ itemRoutes index items, route.1 ≠ []
  | [] => by simp [itemRoutes]
  | n :: rest => List.forall_mem_append.mpr ⟨routeUnder_ne_nil, itemRoutes_ne_nil (index + 1) rest⟩

theorem entryRoutes_ne_nil : ∀ entries : List (String × Node),
    ∀ route ∈ entryRoutes entries, route.1 ≠ []
  | [] => by simp [entryRoutes]
  | (key, n) :: rest => List.forall_mem_append.mpr ⟨routeUnder_ne_nil, entryRoutes_ne_nil rest⟩

/-- In a container every leaf is below the root. -/
theorem routes_ne_nil {n : Node} (h : n.isContainer = true) : ∀ route ∈ n.routes, route.1 ≠ [] := by
  cases n with
  | leaf x => simp [isContainer, isLeaf] at h
  | sequence items => exact itemRoutes_ne_nil 0 items
  | mapping entries => exact entryRoutes_ne_nil entries

end Container

/-- Paths that are followed to the leaves, one after the other, are distinct as the addresses of the
leaves are. -/
theorem nodup_of_follow {n : Node} {path : String → List String} {found : List (String × Scalar)}
    (h : found.map (fun found => (n.follow (path found.1), found.2)) =
      n.spots.map fun spot => (some (spot.1, leaf spot.2), spot.2)) :
    (found.map Prod.fst).Nodup := by
  have haddress : (found.map Prod.fst).map (fun text => (n.follow (path text)).map Prod.fst) =
      (n.spots.map Prod.fst).map some := by
    simpa [Function.comp_def] using congrArg (List.map fun led => led.1.map Prod.fst) h
  refine List.Nodup.of_map (fun text => (n.follow (path text)).map Prod.fst) ?_
  rw [haddress]
  exact (nodup_spots n).map fun _ _ => Option.some.inj

/-- **The path of a leaf is the address of that leaf.** Let the mappings of a document have keys
that are distinct, not empty and free of the separator, and let the separator be no digit. Then the
paths that are reported are distinct; and if the root is no leaf itself, each path, cut at the
separator and followed from the root, leads to just the leaf it was reported with. -/
theorem paths_lead_to_leaves {separator : Char} {n : Node} (hkeyed : n.Everywhere (Keyed separator))
    (hdigit : separator.isDigit = false) :
    ((n.leafPaths (String.singleton separator)).map Prod.fst).Nodup ∧
    (n.isContainer = true →
      (n.leafPaths (String.singleton separator)).map
          (fun found => (n.follow (pieces separator found.1), found.2)) =
        n.spots.map fun spot => (some (spot.1, leaf spot.2), spot.2)) := by
  have hlead : n.isContainer = true →
      (n.leafPaths (String.singleton separator)).map
          (fun found => (n.follow (pieces separator found.1), found.2)) =
        n.spots.map fun spot => (some (spot.1, leaf spot.2), spot.2) := by
    intro hcontainer
    rw [← follows hkeyed, leafPaths_eq, List.map_map]
    refine List.map_congr_left fun route hroute => ?_
    have hpieces := pieces_routeText (sound_routes hdigit hkeyed route hroute)
      (routes_ne_nil hcontainer route hroute)
    simp [hpieces]
  refine ⟨?_, hlead⟩
  -- A leaf at the root has the only path; below a container paths differ as addresses do.
  cases n with
  | leaf x => simp [leafPaths_eq, routes]
  | sequence items => exact nodup_of_follow (hlead rfl)
  | mapping entries => exact nodup_of_follow (hlead rfl)

/-- A document with a list of mappings, and a key that looks like an index. -/
def listedDocument : Node :=
  mapping [
    ("keywords", sequence [leaf (.text "chemistry"), leaf (.text "lasers")]),
    ("authors", sequence [mapping [("name", leaf (.text "Ada")), ("10", sequence [leaf .null])]])]

theorem paths_lead_to_listed_leaves :
    listedDocument.Everywhere (Keyed '.') ∧ '.'.isDigit = false ∧
    listedDocument.isContainer = true ∧
    ((listedDocument.leafPaths ".").map Prod.fst).Nodup ∧
    (listedDocument.leafPaths ".").map (fun found => (listedDocument.follow (pieces '.' found.1),
      found.2)) = listedDocument.spots.map fun spot => (some (spot.1, leaf spot.2), spot.2) := by
  have hkeyed : listedDocument.Everywhere (Keyed '.') := by decide
  have hlead := paths_lead_to_leaves hkeyed (by decide)
  exact ⟨hkeyed, by decide, rfl, hlead.1, hlead.2 rfl⟩

/-- An empty key at the front leaves no trace: two leaves get one path. -/
example : ((mapping [("", mapping [("a", leaf .null)]), ("a", leaf .null)]).leafPaths ".").map
    Prod.fst = ["a", "a"] := by decide

end DepositForm.Node
