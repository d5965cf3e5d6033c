import DepositForm.Proofs.Storage.Walk

/-! # Making directories

Directories are made where nothing is and nowhere else, so a disk on which they have been made
*extends* the one before: every other place holds what it held (`extends_ensureParent`).

A disk is *rooted* if whatever there is stands in a directory, as does whoever stands on it. Making
directories keeps it rooted, because a walk that ends at a vacant place has come through the
directory around it (`Walks.above`).
-/
namespace DepositForm.Disk

variable {d d' : Disk}

/-! ## Putting something in a place -/

theorem content?_root (d : Disk) : d.content? [] = some .directory := if_pos rfl

/-- What there is is listed. -/
theorem mem_contents {place : Place} {c : Content} (h : d.content? place = some c)
    (hroot : place ≠ []) : (place, c) ∈ d.contents := by
  rw [content?, if_neg hroot] at h
  obtain ⟨front, rest, hcontents, -⟩ := List.lookup_eq_some_iff.mp h
  rw [hcontents]
  exact List.mem_append_right front List.mem_cons_self

theorem lookup_filter_ne {place p : Place} (h : p ≠ place) (contents : List (Place × Content)) :
    (contents.filter (·.1 ≠ place)).lookup p = contents.lookup p := by
  induction contents with
  | nil => rfl
  | cons e rest ih =>
    obtain ⟨q, c⟩ := e
    by_cases hq : q = place
    · have hp : (p == q) = false := by rw [hq]; exact beq_eq_false_iff_ne.mpr h
      rw [List.filter_cons_of_neg (by simp [hq]), ih, List.lookup_cons, hp]
    · rw [List.filter_cons_of_pos (by simp [hq]), List.lookup_cons, List.lookup_cons, ih]

theorem content?_put {place : Place} (c : Content) (h : place ≠ []) :
    (d.put place c).content? place = some c := by
  simp [content?, put, h]

theorem content?_put_of_ne {place p : Place} (c : Content) (h : p ≠ place) :
    (d.put place c).content? p = d.content? p := by
  have hp : (p == place) = false := beq_eq_false_iff_ne.mpr h
  unfold content? put
  by_cases hroot : p = []
  · rw [if_pos hroot, if_pos hroot]
  · rw [if_neg hroot, if_neg hroot, List.lookup_cons, hp]
    exact lookup_filter_ne h d.contents

@[simp] theorem spot_put (place : Place) (c : Content) : (d.put place c).spot = d.spot := rfl

/-! ## Rooted disks -/

/-- The directory of a spot is there, or the one it was in. -/
def Stands (d : Disk) : Spot → Prop
  | .live place | .gone place => d.content? place = some .directory

/-- Whatever there is stands in a directory, as does whoever stands on the disk. -/
structure Rooted (d : Disk) : Prop where
  above : ∀ place name, d.content? (place ++ [name]) ≠ none → d.content? place = some .directory
  stands : d.Stands d.spot

theorem rooted_of_contents (hspot : d.Stands d.spot)
    (h : ∀ p ∈ d.contents, d.content? p.1.dropLast = some .directory) : d.Rooted := by
  refine ⟨fun place name hthere => ?_, hspot⟩
  obtain ⟨c, hc⟩ := Option.ne_none_iff_exists'.mp hthere
  simpa using h _ (mem_contents hc (by simp))

theorem Rooted.up (h : d.Rooted) {spot : Spot} (hspot : d.Stands spot) : d.Stands spot.up := by
  cases spot with
  | gone above => exact hspot
  | live place =>
    rcases List.eq_nil_or_concat place with rfl | ⟨above, name, rfl⟩
    · exact hspot
    · rw [List.concat_eq_append] at hspot ⊢
      have hthere : d.content? (above ++ [name]) = some .directory := hspot
      have habove := h.above above name (by rw [hthere]; simp)
      simpa [Spot.up, Stands] using habove

theorem stands_startOf (path : Path) {spot : Spot} (hspot : d.Stands spot) :
    d.Stands (startOf path spot) := by
  unfold startOf
  split
  · exact content?_root d
  · exact hspot

/-- A walk that ends at a vacant place has come through the directory around it. -/
theorem Walks.above {purpose : Purpose} {links : Nat} {spot : Spot} {names : List String}
    {stop : Stop} (hrooted : d.Rooted) (h : d.Walks purpose links spot names stop)
    (hspot : d.Stands spot) {place : Place} (hstop : stop = .vacant (some place)) :
    ∃ above name, place = above ++ [name] ∧ d.content? above = some .directory := by
  induction h with
  | done | lost | file | link => cases hstop
  | skip _ _ ih => exact ih hspot hstop
  | up _ ih => exact ih (hrooted.up hspot) hstop
  | vacant _ _ => cases hstop; exact ⟨_, _, rfl, hspot⟩
  | enter _ _ hdir _ ih => exact ih hdir hstop
  | follow _ _ _ _ _ ih => exact ih (stands_startOf _ hspot) hstop

/-- A place that holds no directory can be given anything that stands in one. -/
theorem Rooted.put (h : d.Rooted) {above : Place} {name : String} (c : Content)
    (habove : d.content? above = some .directory)
    (hplace : d.content? (above ++ [name]) ≠ some .directory) :
    (d.put (above ++ [name]) c).Rooted := by
  have hkeep : ∀ place, d.content? place = some .directory →
      (d.put (above ++ [name]) c).content? place = some .directory := by
    intro place hdir
    have hne : place ≠ above ++ [name] := by rintro rfl; exact hplace hdir
    rw [content?_put_of_ne c hne, hdir]
  refine ⟨?_, ?_⟩
  · intro place name' hthere
    by_cases hsame : place ++ [name'] = above ++ [name]
    · obtain ⟨rfl, -⟩ := List.append_inj' hsame rfl
      exact hkeep place habove
    · rw [content?_put_of_ne c hsame] at hthere
      exact hkeep place (h.above place name' hthere)
  · have hspot := h.stands
    rw [spot_put]
    cases hs : d.spot with
    | live place | gone place =>
      rw [hs] at hspot
      exact hkeep place hspot

/-! ## Extensions -/

/-- A disk with more directories, at places where nothing was. -/
structure Extends (d d' : Disk) : Prop where
  spot : d'.spot = d.spot
  content : ∀ place, d'.content? place = d.content? place ∨
    d.content? place = none ∧ d'.content? place = some .directory
  rooted : d.Rooted → d'.Rooted

theorem Extends.refl (d : Disk) : d.Extends d := ⟨rfl, fun _ => .inl rfl, id⟩

theorem Extends.trans {d'' : Disk} (h : d.Extends d') (h' : d'.Extends d'') : d.Extends d'' := by
  refine ⟨h'.spot.trans h.spot, ?_, fun hd => h'.rooted (h.rooted hd)⟩
  intro place
  rcases h.content place with heq | ⟨hnone, hdir⟩
  · rw [← heq]
    exact h'.content place
  · rcases h'.content place with heq' | ⟨hnone', -⟩
    · exact .inr ⟨hnone, heq'.trans hdir⟩
    · rw [hdir] at hnone'
      cases hnone'

/-- What there was is there as before. -/
theorem Extends.of_some (h : d.Extends d') {place : Place} {c : Content}
    (hc : d.content? place = some c) : d'.content? place = some c := by
  rcases h.content place with heq | ⟨hnone, -⟩
  · rw [heq, hc]
  · rw [hnone] at hc
    cases hc

theorem extends_makeDirectory {path : Path} (h : d.makeDirectory path = .ok d') :
    d.Extends d' := by
  unfold makeDirectory at h
  cases hwalk : d.walk .make path with
  | error e => rw [hwalk] at h; cases h
  | ok stop =>
    rw [hwalk] at h
    obtain ⟨-, hwalks⟩ := walk_eq_ok.mp hwalk
    cases stop with
    | directory _ | file _ | link _ => cases h
    | vacant place =>
      cases place with
      | none => cases h
      | some place =>
        cases h
        -- The walk has found nothing in this place.
        have hnone : d.content? place = none := hwalks.right
        refine ⟨rfl, ?_, ?_⟩
        · intro p
          by_cases hp : p = place
          · have hroot : place ≠ [] := by
              rintro rfl
              rw [content?_root] at hnone
              cases hnone
            rw [hp]
            exact .inr ⟨hnone, content?_put _ hroot⟩
          · exact .inl (content?_put_of_ne _ hp)
        · intro hrooted
          obtain ⟨above, name, rfl, habove⟩ :=
            hwalks.above hrooted (stands_startOf path hrooted.stands) rfl
          exact hrooted.put _ habove (by rw [hnone]; simp)

theorem extends_ensureDirectory (d : Disk) (path : Path) :
    d.Extends (d.ensureDirectory path).2 := by
  unfold ensureDirectory
  split
  · exact extends_makeDirectory ‹_›
  · exact .refl d
  · exact .refl d

theorem extends_ensureAll (d : Disk) (dirs : List Path) : d.Extends (d.ensureAll dirs).2 := by
  induction dirs generalizing d with
  | nil => exact .refl d
  | cons dir above ih =>
    -- A directory that cannot be made for lack of those above it is tried again after them.
    have hfirst := extends_ensureDirectory d dir
    rw [ensureAll]
    split
    · rename_i d₁ hd₁
      rw [hd₁] at hfirst
      have habove := ih d₁
      split
      · rename_i d₂ hd₂
        rw [hd₂] at habove
        exact (hfirst.trans habove).trans (extends_ensureDirectory d₂ dir)
      · exact hfirst.trans habove
    · exact hfirst

/-- **Making the directories that a path leads through extends the disk**, also if one of them
cannot be made. -/
theorem extends_ensureParent (d : Disk) (path : Path) : d.Extends (d.ensureParent path).2 := by
  unfold ensureParent
  split
  · exact extends_ensureAll d _
  · exact .refl d

end DepositForm.Disk
