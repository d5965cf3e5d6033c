import DepositForm.Document.Load

/-! # Paths of leaves

A walk that tells paths writes them into one text: a segment goes on at the end on the way down,
and the text is cut back on the way up. Whether a separator is due is seen from the text alone, by
its being empty, and not from the level. This module tells the same paths without that text.

* `routes` lists the leaves in document order, each with the segments that lead to it from the
  root; `routeText` is the path they make: empty segments at the front do not count, and the
  others are joined.
* The invariant is that the text on the way is `routeText` of the segments so far
  (`pushSegment_routeText`), and that a child leaves it as it was (`below_eq`): what is cut off is
  just what was put on, because a text cut to the size of a front of it is that front
  (`frontChars_append`).
* So a walk calls its function on the routes, one after the other (`visitTrail_eq`).
-/
namespace DepositForm.Node

variable {σ : Type}

/-! ## Segments and the paths they make -/

/-- A leaf one segment further down. -/
def routeUnder (segment : String) (route : List String × Scalar) : List String × Scalar :=
  (segment :: route.1, route.2)

mutual
/-- All leaves in document order, each with the segments from the root to it. -/
def routes : Node → List (List String × Scalar)
  | leaf x => [([], x)]
  | sequence items => itemRoutes 0 items
  | mapping entries => entryRoutes entries

/-- The routes through items, the first of which has the index `index`. -/
def itemRoutes (index : Nat) : List Node → List (List String × Scalar)
  | [] => []
  | n :: rest => n.routes.map (routeUnder (toString index)) ++ itemRoutes (index + 1) rest

def entryRoutes : List (String × Node) → List (List String × Scalar)
  | [] => []
  | (key, n) :: rest => n.routes.map (routeUnder key) ++ entryRoutes rest
end

/-- The path that some segments make. -/
def routeText (separator : String) (segments : List String) : String :=
  separator.intercalate (segments.dropWhile String.isEmpty)

@[simp] theorem routeText_nil (separator : String) : routeText separator [] = "" := by
  simp [routeText]

@[simp] theorem routeText_singleton (separator segment : String) :
    routeText separator [segment] = segment := by
  cases h : segment.isEmpty
  · simp [routeText, h]
  · simp [routeText, String.isEmpty_iff.mp h]

/-- No segment that comes first after the empty ones is empty. -/
theorem isEmpty_head_dropWhile {segments : List String} {first : String} {rest : List String}
    (h : segments.dropWhile String.isEmpty = first :: rest) : first.isEmpty = false := by
  have hne : segments.dropWhile String.isEmpty ≠ [] := by simp [h]
  simpa [h] using List.head_dropWhile_not String.isEmpty hne

/-- A path is empty only as long as all its segments are. -/
theorem isEmpty_routeText (separator : String) (segments : List String) :
    (routeText separator segments).isEmpty = (segments.dropWhile String.isEmpty).isEmpty := by
  cases h : segments.dropWhile String.isEmpty with
  | nil => simp [routeText, h]
  | cons first rest =>
    have hfirst : first ≠ "" := String.isEmpty_eq_false_iff.mp (isEmpty_head_dropWhile h)
    cases rest with
    | nil => simpa [routeText, h] using hfirst
    | cons second rest =>
      simp [routeText, h, String.intercalate_cons_cons, hfirst]

/-- **One more segment on the path is one more segment on the route.** The separator comes in just
when a segment before it was not empty. -/
theorem pushSegment_routeText (separator : String) (segments : List String) (segment : String) :
    pushSegment separator (routeText separator segments) segment =
      routeText separator (segments ++ [segment]) := by
  unfold pushSegment
  rw [isEmpty_routeText]
  cases h : segments.dropWhile String.isEmpty with
  | nil =>
    simp only [List.isEmpty_nil, reduceIte, routeText, List.dropWhile_append, h]
    exact (routeText_singleton separator segment).symm
  | cons first rest =>
    simp only [List.isEmpty_cons, Bool.false_eq_true, reduceIte, routeText, List.dropWhile_append,
      h]
    rw [String.intercalate_append_of_ne_nil (by simp) (by simp), String.intercalate_singleton]

/-! ## Cutting back -/

/-- The size of a text is the sum of the sizes of its characters. -/
theorem utf8ByteSize_ofList_cons (c : Char) (cs : List Char) :
    (String.ofList (c :: cs)).utf8ByteSize = c.utf8Size + (String.ofList cs).utf8ByteSize := by
  rw [← List.singleton_append, String.ofList_append, String.utf8ByteSize_append,
    ← String.singleton_eq_ofList, String.utf8ByteSize_singleton]

theorem frontChars_append (front back : List Char) :
    frontChars (String.ofList front).utf8ByteSize (front ++ back) = front := by
  induction front with
  | nil =>
    cases back with
    | nil => rfl
    | cons c rest => simp [frontChars, Nat.not_le_of_lt c.utf8Size_pos]
  | cons c front ih =>
    rw [utf8ByteSize_ofList_cons, List.cons_append, frontChars]
    simp [ih]

/-- What was added to a path is cut off again, whatever the sizes of its characters. -/
theorem Trail.truncate_append (path more : String) (s : σ) :
    Trail.truncate path.utf8ByteSize ⟨path ++ more, s⟩ = ⟨path, s⟩ := by
  have h := frontChars_append path.toList more.toList
  rw [String.ofList_toList] at h
  simp [Trail.truncate, h]

/-- A path only grows by a segment. -/
theorem pushSegment_eq_append (separator path segment : String) :
    ∃ more, pushSegment separator path segment = path ++ more := by
  unfold pushSegment
  cases h : path.isEmpty
  · exact ⟨separator ++ segment, by simp [String.append_assoc]⟩
  · exact ⟨segment, by simp [String.isEmpty_iff.mp h]⟩

/-- A walk that gives back the path it got goes one segment down and back up again. -/
theorem Trail.below_eq {separator segment : String} {walk : Trail σ → Trail σ} {t : Trail σ}
    (h : (walk (t.push separator segment)).path = (t.push separator segment).path) :
    t.below separator segment walk = ⟨t.path, (walk (t.push separator segment)).state⟩ := by
  obtain ⟨more, hmore⟩ := pushSegment_eq_append separator t.path segment
  have hwalk : walk (t.push separator segment) =
      ⟨t.path ++ more, (walk (t.push separator segment)).state⟩ := by
    rw [← hmore]
    exact Trail.mk.injEq .. ▸ ⟨h, rfl⟩
  rw [Trail.below, hwalk, Trail.truncate_append]

/-! ## The walk -/

section Walk
variable (separator : String) (f : σ → String → Scalar → σ)

/-- What a walk does with one leaf below `segments`. -/
def atRoute (segments : List String) (s : σ) (route : List String × Scalar) : σ :=
  f s (routeText separator (segments ++ route.1)) route.2

theorem foldl_routeUnder (segments : List String) (segment : String)
    (found : List (List String × Scalar)) (s : σ) :
    (found.map (routeUnder segment)).foldl (atRoute separator f segments) s =
      found.foldl (atRoute separator f (segments ++ [segment])) s := by
  rw [List.foldl_map]
  refine congrArg (List.foldl · s found) (funext fun s => funext fun route => ?_)
  simp [atRoute, routeUnder]

/-- A child under `segment`, walked from where its parent stands. -/
theorem below_routeText {segments : List String} {segment : String} {s : σ}
    {walk : Trail σ → Trail σ} {found : List (List String × Scalar)}
    (h : walk ⟨routeText separator (segments ++ [segment]), s⟩ =
      ⟨routeText separator (segments ++ [segment]),
        found.foldl (atRoute separator f (segments ++ [segment])) s⟩) :
    Trail.below separator segment walk ⟨routeText separator segments, s⟩ =
      ⟨routeText separator segments,
        (found.map (routeUnder segment)).foldl (atRoute separator f segments) s⟩ := by
  have hpush : Trail.push separator segment ⟨routeText separator segments, s⟩ =
      ⟨routeText separator (segments ++ [segment]), s⟩ := by
    rw [Trail.push, pushSegment_routeText]
  rw [Trail.below_eq (by rw [hpush, h]), hpush, h, foldl_routeUnder]

mutual
/-- **The invariant of the walk.** A walk that has come down `segments` calls `f` on the routes
below, and leaves the path as it was. -/
theorem visitTrail_eq (segments : List String) (s : σ) : ∀ n : Node,
    n.visitTrail separator f ⟨routeText separator segments, s⟩ =
      ⟨routeText separator segments, n.routes.foldl (atRoute separator f segments) s⟩
  | leaf x => by simp [visitTrail, routes, atRoute]
  | sequence items => by
    rw [visitTrail, routes, visitItemsTrail_eq segments 0 s items]
  | mapping entries => by
    rw [visitTrail, routes, visitEntriesTrail_eq segments s entries]

theorem visitItemsTrail_eq (segments : List String) (index : Nat) (s : σ) : ∀ items : List Node,
    visitItemsTrail separator f index ⟨routeText separator segments, s⟩ items =
      ⟨routeText separator segments,
        (itemRoutes index items).foldl (atRoute separator f segments) s⟩
  | [] => by simp [visitItemsTrail, itemRoutes]
  | n :: rest => by
    rw [visitItemsTrail, itemRoutes, List.foldl_append,
      below_routeText separator f (visitTrail_eq (segments ++ [toString index]) s n),
      visitItemsTrail_eq segments (index + 1) _ rest]

theorem visitEntriesTrail_eq (segments : List String) (s : σ) : ∀ entries : List (String × Node),
    visitEntriesTrail separator f ⟨routeText separator segments, s⟩ entries =
      ⟨routeText separator segments,
        (entryRoutes entries).foldl (atRoute separator f segments) s⟩
  | [] => by simp [visitEntriesTrail, entryRoutes]
  | (key, n) :: rest => by
    rw [visitEntriesTrail, entryRoutes, List.foldl_append,
      below_routeText separator f (visitTrail_eq (segments ++ [key]) s n),
      visitEntriesTrail_eq segments _ rest]
end

/-- Whatever the path is when a walk begins, it is the same when the walk is over. -/
theorem path_visitTrail (n : Node) (t : Trail σ) : (n.visitTrail separator f t).path = t.path := by
  have h := congrArg Trail.path (visitTrail_eq separator f [t.path] t.state n)
  rwa [routeText_singleton] at h

end Walk

mutual
/-- The routes lead to the leaves, to each once and in order. -/
theorem map_snd_routes : ∀ n : Node, n.routes.map Prod.snd = n.leaves
  | leaf x => rfl
  | sequence items => by rw [routes, leaves, map_snd_itemRoutes 0 items]
  | mapping entries => by rw [routes, leaves, map_snd_entryRoutes entries]

theorem map_snd_itemRoutes (index : Nat) : ∀ items : List Node,
    (itemRoutes index items).map Prod.snd = itemLeaves items
  | [] => rfl
  | n :: rest => by
    rw [itemRoutes, itemLeaves, List.map_append, List.map_map, ← map_snd_routes n,
      ← map_snd_itemRoutes (index + 1) rest]
    rfl

theorem map_snd_entryRoutes : ∀ entries : List (String × Node),
    (entryRoutes entries).map Prod.snd = entryLeaves entries
  | [] => rfl
  | (key, n) :: rest => by
    rw [entryRoutes, entryLeaves, List.map_append, List.map_map, ← map_snd_routes n,
      ← map_snd_entryRoutes rest]
    rfl
end

theorem visitPaths_eq_foldl (n : Node) (separator : String) (f : σ → String → Scalar → σ) (s : σ) :
    n.visitPaths separator f s =
      n.routes.foldl (fun s route => f s (routeText separator route.1) route.2) s := by
  have h := congrArg Trail.state (visitTrail_eq separator f [] s n)
  rwa [routeText_nil] at h

/-- The leaves that are listed with their paths, without the walk. -/
theorem leafPaths_eq (n : Node) (separator : String) :
    n.leafPaths separator = n.routes.map fun route => (routeText separator route.1, route.2) := by
  rw [leafPaths, visitPaths_eq_foldl, List.foldl_flip_cons_eq_append]
  simp

/-- **Every leaf is reported once, in document order, under the path its segments make.** A walk
with any function, from any state, goes through the routes; these lead to the leaves; a child
leaves the path of its parent as it was, whatever that path, the segment and the separator are; and
the leaves of a document in storage are those of its tree. -/
theorem leaves_reported_under_their_routes {m : Type → Type} [Monad m] (n : Node)
    (separator : String) (f : σ → String → Scalar → σ) (storage : Storage m)
    (wording : Toml.Wording) (file : Path) :
    (∀ s, n.visitPaths separator f s =
      n.routes.foldl (fun s route => f s (routeText separator route.1) route.2) s) ∧
    n.routes.map Prod.snd = n.leaves ∧
    (∀ t : Trail σ, (n.visitTrail separator f t).path = t.path) ∧
    (∀ (t : Trail σ) (segment : String),
      (t.below separator segment fun t => n.visitTrail separator f t).path = t.path) ∧
    storage.loadLeaves wording file separator = (do
      let document ← storage.loadDocument wording file
      return document.routes.map fun route => (routeText separator route.1, route.2)) := by
  refine ⟨visitPaths_eq_foldl n separator f, map_snd_routes n, path_visitTrail separator f n,
    ?_, ?_⟩
  · intro t segment
    rw [Trail.below_eq (path_visitTrail separator f n _)]
  · simp only [Storage.loadLeaves, leafPaths_eq]

end DepositForm.Node
