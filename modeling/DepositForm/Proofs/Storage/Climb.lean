import DepositForm.Proofs.Storage.Extend

/-! # Paths that lead back

A path at which nothing is may lead to a file once the directories on its way have been made. On a
rooted disk there is only one way to this: below a directory that has just been made there are such
directories only, so the walk must have come back up out of it. `Climbs` says of a walk that it
comes to a missing name with a step up still to come, and `climbs_of_reopens` that no other path
leads to a file all of a sudden.
-/
namespace DepositForm.Disk

variable {d d' : Disk}

/-- A walk along some names comes to one that is missing, with a step up still to come. -/
inductive Climbs (d : Disk) : Spot → List String → Prop
  | missing {above name rest} : Named name → d.content? (above ++ [name]) = none → ".." ∈ rest →
      Climbs d (.live above) (name :: rest)
  | skip {spot name rest} : (name = "" ∨ name = ".") → Climbs d spot rest →
      Climbs d spot (name :: rest)
  | up {spot : Spot} {rest} : Climbs d spot.up rest → Climbs d spot (".." :: rest)
  | enter {above name rest} : Named name → d.content? (above ++ [name]) = some .directory →
      Climbs d (.live (above ++ [name])) rest → Climbs d (.live above) (name :: rest)
  | follow {above name target rest} : Named name →
      d.content? (above ++ [name]) = some (.link target) →
      Climbs d (startOf target (.live above)) (namesOf target ++ rest) →
      Climbs d (.live above) (name :: rest)

/-- Nothing is at a path, but once its directories have been made it leads to the file at
`place`. -/
def Reopens (d : Disk) (path : Path) (place : Place) : Prop :=
  d.isThere path = false ∧
    ∃ d', d.ensureParent path = (.ok (), d') ∧ d'.walk .create path = .ok (.file place)

/-- What is there is what a walk finds: a directory or a file. -/
theorem isThere_iff {path : Path} : d.isThere path = true ↔ ∃ stop, d.walk .look path = .ok stop ∧
    ((∃ spot, stop = .directory spot) ∨ ∃ place, stop = .file place) := by
  constructor
  · intro hthere
    unfold isThere at hthere
    split at hthere
    · exact ⟨_, ‹_›, .inl ⟨_, rfl⟩⟩
    · exact ⟨_, ‹_›, .inr ⟨_, rfl⟩⟩
    · cases hthere
  · rintro ⟨stop, hwalk, ⟨spot, rfl⟩ | ⟨place, rfl⟩⟩
    · rw [isThere, hwalk]
    · rw [isThere, hwalk]

theorem isThere_of_file {path : Path} {place : Place} (h : d.walk .look path = .ok (.file place)) :
    d.isThere path = true := by
  rw [isThere, h]

/-- Below a place where nothing was, a walk that does not go up finds no file. -/
theorem Walks.ne_file {purpose : Purpose} {links : Nat} {spot : Spot} {names : List String}
    {stop : Stop} (h : d'.Walks purpose links spot names stop) (hrooted : d.Rooted)
    (hextends : d.Extends d') {p place : Place} (hspot : spot = .live p)
    (hnone : d.content? p = none) (hup : ".." ∉ names) : stop ≠ .file place := by
  have hbelow : ∀ p name, d.content? p = none → d.content? (p ++ [name]) = none := by
    intro p name hp
    cases hc : d.content? (p ++ [name]) with
    | none => rfl
    | some c =>
      have habove := hrooted.above p name (by rw [hc]; simp)
      rw [hp] at habove
      cases habove
  have hmade : ∀ p c, d.content? p = none → d'.content? p = some c → c = .directory := by
    intro p c hp hc
    rcases hextends.content p with heq | ⟨-, hdir⟩
    · rw [heq, hp] at hc
      cases hc
    · rw [hdir] at hc
      exact (Option.some.inj hc).symm
  induction h generalizing p with
  | done | lost | vacant | link => simp
  | skip _ _ ih => exact ih hspot hnone fun h => hup (List.mem_cons_of_mem _ h)
  | up _ _ => exact absurd List.mem_cons_self hup
  | enter _ _ _ _ ih =>
    cases hspot
    exact ih rfl (hbelow _ _ hnone) fun h => hup (List.mem_cons_of_mem _ h)
  | file _ hfile =>
    cases hspot
    exact nomatch hmade _ _ (hbelow _ _ hnone) hfile
  | follow _ _ _ hlink _ _ =>
    cases hspot
    exact nomatch hmade _ _ (hbelow _ _ hnone) hlink

/-- **A walk that finds a file among new directories found it before, unless it climbs.** -/
theorem Walks.back {links : Nat} {spot : Spot} {names : List String} {stop : Stop}
    (h : d'.Walks .create links spot names stop) (hrooted : d.Rooted) (hextends : d.Extends d')
    (hspot : d.Stands spot) {place : Place} (hstop : stop = .file place) :
    d.Climbs spot names ∨ d.Walks .look links spot names (.file place) := by
  have hadmits : ∀ rest, Admits .look rest := fun _ h => nomatch h.1
  induction h with
  | done | lost | vacant | link => cases hstop
  | skip hskip _ ih =>
    rcases ih hspot hstop with hclimbs | hwalks
    · exact .inl (.skip hskip hclimbs)
    · exact .inr (.skip hskip hwalks)
  | up _ ih =>
    rcases ih (hrooted.up hspot) hstop with hclimbs | hwalks
    · exact .inl (.up hclimbs)
    · exact .inr (.up hwalks)
  | @enter links above name rest stop hname _ hdir hrest ih =>
    rcases hextends.content (above ++ [name]) with heq | ⟨hnone, -⟩
    · rw [heq] at hdir
      rcases ih hdir hstop with hclimbs | hwalks
      · exact .inl (.enter hname hdir hclimbs)
      · exact .inr (.enter hname (hadmits rest) hdir hwalks)
    · -- The walk goes on below a directory that was not there.
      by_cases hup : ".." ∈ rest
      · exact .inl (.missing hname hnone hup)
      · exact absurd hstop (hrest.ne_file hrooted hextends rfl hnone hup)
  | @file links above name bytes hname hfile =>
    rcases hextends.content (above ++ [name]) with heq | ⟨-, hdir⟩
    · rw [heq] at hfile
      cases hstop
      exact .inr (.file hname hfile)
    · rw [hdir] at hfile
      cases hfile
  | @follow links above name target rest stop hname _ _ hlink _ ih =>
    rcases hextends.content (above ++ [name]) with heq | ⟨-, hdir⟩
    · rw [heq] at hlink
      rcases ih (stands_startOf target hspot) hstop with hclimbs | hwalks
      · exact .inl (.follow hname hlink hclimbs)
      · exact .inr (.follow hname (hadmits rest) (fun h => nomatch h.1) hlink hwalks)
    · rw [hdir] at hlink
      cases hlink

/-- **Only a path that climbs out of a missing directory leads to a file when its directories have
been made.** -/
theorem climbs_of_reopens (hrooted : d.Rooted) {path : Path} {place : Place}
    (h : d.Reopens path place) : d.Climbs (startOf path d.spot) (namesOf path) := by
  obtain ⟨hthere, d', hparent, hwalk⟩ := h
  have hextends : d.Extends d' := by
    have h := extends_ensureParent d path
    rwa [hparent] at h
  obtain ⟨hpath, hwalks⟩ := walk_eq_ok.mp hwalk
  rw [hextends.spot] at hwalks
  rcases hwalks.back hrooted hextends (stands_startOf path hrooted.stands) rfl with hclimbs | hlook
  · exact hclimbs
  · have hfile := isThere_of_file (walk_eq_ok.mpr ⟨hpath, hlook⟩)
    rw [hthere] at hfile
    cases hfile

end DepositForm.Disk
