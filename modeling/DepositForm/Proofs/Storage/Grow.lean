import DepositForm.Proofs.Storage.Climb
import DepositForm.Proofs.Storage.Parents

/-! # Directories are made on the way only

To make the directories of a path changes a disk in few places. If the path leads straight to its
place (`Direct`), every directory that is new stands above that place (`addsAbove_ensureParent`): it
is on the way there, and neither in the place itself nor anywhere else. The path cannot lead back to
a file either (`Direct.not_reopens`).
-/
namespace DepositForm.Disk

variable {d d' : Disk} {path dir : Path}

/-- The place that a path spells. -/
def goal? (d : Disk) (path : Path) : Option Place :=
  goalFrom (startOf path d.spot) (namesOf path)

/-- A path leads straight to its place. -/
def Direct (d : Disk) (path : Path) : Prop := d.Straight (startOf path d.spot) (namesOf path)

/-- A place is passed on the way down to another one. -/
def Above (place goal : Place) : Prop := ∃ rest, rest ≠ [] ∧ goal = place ++ rest

theorem above_iff {place goal : Place} : Above place goal ↔ place <+: goal ∧ place ≠ goal := by
  constructor
  · rintro ⟨rest, hrest, rfl⟩
    exact ⟨List.prefix_append place rest, fun heq => hrest (List.self_eq_append_right.mp heq)⟩
  · rintro ⟨⟨rest, rfl⟩, hne⟩
    exact ⟨rest, fun hrest => hne (List.self_eq_append_right.mpr hrest), rfl⟩

instance (place goal : Place) : Decidable (Above place goal) := decidable_of_iff' _ above_iff

theorem goal?_eq (h : d'.spot = d.spot) (path : Path) : d'.goal? path = d.goal? path := by
  rw [goal?, goal?, h]

/-- Without links every path without a step up is direct. -/
theorem direct_of_contents (hup : ".." ∉ counted (namesOf path))
    (h : ∀ p ∈ d.contents, ∀ target, p.2 ≠ .link target) : d.Direct path := by
  refine ⟨hup, fun place _ front _ target hlink => ?_⟩
  by_cases hroot : place ++ front = []
  · rw [hroot, content?_root] at hlink
    cases hlink
  · exact h _ (mem_contents hlink hroot) target rfl

/-- A path is as direct on a disk with other things, as long as none of these is a link. -/
theorem Direct.of_links (h : d.Direct path) (hspot : d'.spot = d.spot)
    (hlinks : ∀ place target, d'.content? place = some (.link target) →
      d.content? place = some (.link target)) : d'.Direct path := by
  unfold Direct at h ⊢
  rw [hspot]
  refine ⟨h.no_up, fun place hplace front hfront target hlink => ?_⟩
  exact h.no_link place hplace front hfront target (hlinks _ _ hlink)

theorem Direct.extends (h : d.Direct path) (hextends : d.Extends d') : d'.Direct path := by
  refine h.of_links hextends.spot fun place target hlink => ?_
  rcases hextends.content place with heq | ⟨-, hdir⟩
  · rwa [heq] at hlink
  · rw [hdir] at hlink
    cases hlink

/-- A path that leads straight to its place does not climb. -/
theorem Climbs.not_straight {spot : Spot} {names : List String} (h : d.Climbs spot names) :
    ¬ d.Straight spot names := by
  induction h with
  | missing hname _ hup =>
    intro hstraight
    refine hstraight.no_up ?_
    rw [hname.counted_cons]
    exact List.mem_cons_of_mem _ (List.mem_filter.mpr ⟨hup, by decide⟩)
  | skip hskip _ ih => exact fun hstraight => ih (hstraight.skip hskip)
  | up => exact not_straight_up
  | enter hname _ _ ih => exact fun hstraight => ih (hstraight.enter hname)
  | follow hname hlink => exact fun hstraight => hstraight.not_link hname _ hlink

theorem Direct.not_reopens (h : d.Direct path) (hrooted : d.Rooted) (place : Place) :
    ¬ d.Reopens path place :=
  fun hreopens => (climbs_of_reopens hrooted hreopens).not_straight h

/-! ## The directories of a path -/

theorem startOf_of_leadsThrough (h : path.LeadsThrough dir) (spot : Spot) :
    startOf dir spot = startOf path spot := by
  rw [startOf, startOf, h.start]

theorem Direct.of_leadsThrough (h : d.Direct path) (hdir : path.LeadsThrough dir) :
    d.Direct dir := by
  obtain ⟨rest, -, hnames⟩ := hdir.names
  obtain ⟨hup, hlink⟩ := h
  rw [hnames] at hup hlink
  unfold Direct
  rw [startOf_of_leadsThrough hdir]
  refine ⟨fun hmem => hup (List.mem_append_left _ hmem), ?_⟩
  intro place hplace front hfront
  exact hlink place hplace front (hfront.trans (List.prefix_append _ _))

/-- A directory that a path leads through is on the way to the place of the path. -/
theorem above_of_leadsThrough (hdir : path.LeadsThrough dir) {place : Place}
    (h : d.goal? dir = some place) : ∃ goal, d.goal? path = some goal ∧ Above place goal := by
  obtain ⟨rest, hrest, hnames⟩ := hdir.names
  unfold goal? at h ⊢
  rw [startOf_of_leadsThrough hdir] at h
  cases hstart : startOf path d.spot with
  | gone above =>
    rw [hstart] at h
    cases h
  | live start =>
    rw [hstart] at h
    cases h
    refine ⟨_, rfl, rest, hrest, ?_⟩
    rw [hnames, List.append_assoc]

/-- Whatever is new stands above the place of a path. -/
def AddsAbove (d d' : Disk) (path : Path) : Prop :=
  ∀ place, d.content? place = none → d'.content? place ≠ none →
    ∃ goal, d.goal? path = some goal ∧ Above place goal

theorem AddsAbove.refl (d : Disk) (path : Path) : d.AddsAbove d path :=
  fun _ hnone hthere => absurd hnone hthere

theorem AddsAbove.trans {d'' : Disk} (h : d.AddsAbove d' path) (hspot : d'.spot = d.spot)
    (h' : d'.AddsAbove d'' path) : d.AddsAbove d'' path := by
  intro place hnone hthere
  by_cases hbetween : d'.content? place = none
  · rw [← goal?_eq hspot]
    exact h' place hbetween hthere
  · exact h place hnone hbetween

theorem addsAbove_ensureDirectory (h : d.Direct path) (hdir : path.LeadsThrough dir) :
    d.AddsAbove (d.ensureDirectory dir).2 path := by
  unfold ensureDirectory
  split
  · rename_i d' hmade
    unfold makeDirectory at hmade
    split at hmade
    · cases hmade
    · rename_i place hwalk
      cases hmade
      have hgoal : some place = d.goal? dir :=
        (walk_eq_ok.mp hwalk).2.at_goal (h.of_leadsThrough hdir)
      intro p hnone hthere
      have hp : p = place := by
        by_contra hne
        rw [content?_put_of_ne _ hne] at hthere
        exact hthere hnone
      rw [hp]
      exact above_of_leadsThrough hdir hgoal.symm
    · cases hmade
    · cases hmade
  · exact .refl d path
  · exact .refl d path

theorem addsAbove_ensureAll {dirs : List Path} (h : d.Direct path)
    (hdirs : ∀ dir ∈ dirs, path.LeadsThrough dir) : d.AddsAbove (d.ensureAll dirs).2 path := by
  induction dirs generalizing d with
  | nil => exact .refl d path
  | cons dir above ih =>
    obtain ⟨hdir, habove⟩ := List.forall_mem_cons.mp hdirs
    -- The directory is tried, then those above it, and then it is tried again.
    have hextends := extends_ensureDirectory d dir
    have hfirst := addsAbove_ensureDirectory h hdir
    rw [ensureAll]
    split
    · rename_i d₁ hd₁
      rw [hd₁] at hextends hfirst
      have hextends' := extends_ensureAll d₁ above
      have hrest := ih (h.extends hextends) habove
      split
      · rename_i d₂ hd₂
        rw [hd₂] at hextends' hrest
        have hagain :=
          addsAbove_ensureDirectory ((h.extends hextends).extends hextends') hdir
        exact (hfirst.trans hextends.spot hrest).trans
          (hextends'.spot.trans hextends.spot) hagain
      · exact hfirst.trans hextends.spot hrest
    · exact hfirst

/-- **What is new when the directories of a direct path have been made stands above its place**,
also if one of them could not be made. -/
theorem addsAbove_ensureParent (h : d.Direct path) :
    d.AddsAbove (d.ensureParent path).2 path := by
  unfold ensureParent
  split
  · rename_i components hparent
    exact addsAbove_ensureAll h fun dir hdir =>
      Path.leadsThrough_of_mem_ancestors hparent hdir
  · exact .refl d path

end DepositForm.Disk
