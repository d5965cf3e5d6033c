import DepositForm.Proofs.Storage.Extend
import Mathlib.Data.List.Induction

/-! # Walks that lead straight down

Names lead *straight* from a place if there is no step up among them and no link on their way. The
end of such a walk can be told without walking: it is the place that the names spell, those left out
that stand for nothing (`Walks.at_goal`). On a rooted disk the walk finds something as soon as there
is anything in that place, and then no other disk on which everything is kept lets it find anything
else (`Walks.of_kept`, `Walks.kept`).

From a directory that has been removed no walk leads down, so names spell no place there.
-/
namespace DepositForm.Disk

variable {d d' : Disk} {purpose : Purpose} {links : Nat} {spot : Spot} {names : List String}
  {stop : Stop}

/-! ## Names that count -/

/-- The names that do not stand for the place one is in. -/
def counted (names : List String) : List String := names.filter fun n => n ≠ "" ∧ n ≠ "."

@[simp] theorem counted_nil : counted [] = [] := rfl

theorem counted_skip {name : String} (h : name = "" ∨ name = ".") (rest : List String) :
    counted (name :: rest) = counted rest := by
  rcases h with rfl | rfl <;> rfl

theorem Named.counted_cons {name : String} (h : Named name) (rest : List String) :
    counted (name :: rest) = name :: counted rest :=
  List.filter_cons_of_pos (by simp [h.not_empty, h.not_dot])

/-- The place that names spell from a spot; from a removed directory they spell none. -/
def goalFrom : Spot → List String → Option Place
  | .live place, names => some (place ++ counted names)
  | .gone _, _ => none

theorem goalFrom_skip {name : String} (h : name = "" ∨ name = ".") (spot : Spot)
    (rest : List String) : goalFrom spot (name :: rest) = goalFrom spot rest := by
  cases spot with
  | live place => rw [goalFrom, goalFrom, counted_skip h]
  | gone above => rfl

theorem Named.goalFrom_enter {name : String} (h : Named name) (above : Place)
    (rest : List String) :
    goalFrom (.live above) (name :: rest) = goalFrom (.live (above ++ [name])) rest := by
  rw [goalFrom, goalFrom, h.counted_cons, List.append_assoc, List.singleton_append]

/-- No step up among the names, and no link on their way. -/
structure Straight (d : Disk) (spot : Spot) (names : List String) : Prop where
  no_up : ".." ∉ counted names
  no_link : ∀ place, spot = .live place → ∀ front, front <+: counted names →
    ∀ target, d.content? (place ++ front) ≠ some (.link target)

theorem Straight.skip {name : String} {rest : List String} (hskip : name = "" ∨ name = ".")
    (h : d.Straight spot (name :: rest)) : d.Straight spot rest := by
  obtain ⟨hup, hlink⟩ := h
  rw [counted_skip hskip] at hup hlink
  exact ⟨hup, hlink⟩

theorem not_straight_up {rest : List String} : ¬ d.Straight spot (".." :: rest) := by
  intro h
  have hcounted : counted (".." :: rest) = ".." :: counted rest := rfl
  exact h.no_up (hcounted ▸ List.mem_cons_self)

theorem Straight.not_link {above : Place} {name : String} {rest : List String}
    (h : d.Straight (.live above) (name :: rest)) (hname : Named name) (target : Path) :
    d.content? (above ++ [name]) ≠ some (.link target) := by
  refine h.no_link above rfl [name] ?_ target
  rw [hname.counted_cons]
  exact List.prefix_append [name] _

theorem Straight.enter {above : Place} {name : String} {rest : List String}
    (h : d.Straight (.live above) (name :: rest)) (hname : Named name) :
    d.Straight (.live (above ++ [name])) rest := by
  obtain ⟨hup, hlink⟩ := h
  rw [hname.counted_cons] at hup hlink
  refine ⟨fun hmem => hup (List.mem_cons_of_mem _ hmem), ?_⟩
  rintro place hplace front hfront target
  cases hplace
  rw [List.append_assoc, List.singleton_append]
  exact hlink above rfl (name :: front) ((List.prefix_cons_inj name).mpr hfront) target

/-! ## Where straight walks end -/

/-- The place where a stop is; a removed directory is in none. -/
def Stop.place? : Stop → Option Place
  | .directory (.live place) | .file place | .link place => some place
  | .directory (.gone _) => none
  | .vacant place => place

/-- **A straight walk ends at the place that its names spell.** -/
theorem Walks.at_goal (h : d.Walks purpose links spot names stop)
    (hstraight : d.Straight spot names) : stop.place? = goalFrom spot names := by
  induction h with
  | @done links spot =>
    cases spot with
    | live place => rw [goalFrom, counted_nil, List.append_nil]; rfl
    | gone above => rfl
  | skip hskip _ ih =>
    rw [goalFrom_skip hskip]
    exact ih (hstraight.skip hskip)
  | up => exact absurd hstraight not_straight_up
  | lost => rfl
  | vacant hname | file hname | link hname =>
    rw [hname.goalFrom_enter, goalFrom, counted_nil, List.append_nil]
    rfl
  | enter hname _ _ _ ih =>
    rw [hname.goalFrom_enter]
    exact ih (hstraight.enter hname)
  | follow hname _ _ hlink => exact absurd hlink (hstraight.not_link hname _)

/-- A walk that ends in a directory ends in one that is there. -/
theorem Walks.stands (h : d.Walks purpose links spot names stop) (hrooted : d.Rooted)
    (hspot : d.Stands spot) {last : Spot} (hstop : stop = .directory last) : d.Stands last := by
  induction h with
  | done =>
    cases hstop
    exact hspot
  | skip _ _ ih => exact ih hspot hstop
  | up _ ih => exact ih (hrooted.up hspot) hstop
  | enter _ _ hdir _ ih => exact ih hdir hstop
  | follow _ _ _ _ _ ih => exact ih (stands_startOf _ hspot) hstop
  | lost | vacant | file | link => cases hstop

/-- Above anything that is there, there are directories. -/
theorem Rooted.directory_above (h : d.Rooted) {place rest : Place} (hrest : rest ≠ [])
    (hthere : d.content? (place ++ rest) ≠ none) : d.content? place = some .directory := by
  induction rest using List.reverseRecOn with
  | nil => exact absurd rfl hrest
  | append_singleton rest name ih =>
    rw [← List.append_assoc] at hthere
    have habove := h.above _ _ hthere
    by_cases hnil : rest = []
    · rwa [hnil, List.append_nil] at habove
    · exact ih hnil (by rw [habove]; simp)

/-! ## Disks on which everything is kept -/

/-- What there is on `d` is on `d'` as well. -/
def Kept (d d' : Disk) : Prop := ∀ place c, d.content? place = some c → d'.content? place = some c

/-- A walk that finds something finds it also where there is more. -/
theorem Walks.kept (h : d.Walks purpose links spot names stop) (hkept : d.Kept d')
    (hfound : ∀ place, stop ≠ .vacant place) : d'.Walks purpose links spot names stop := by
  induction h with
  | done => exact .done
  | skip hskip _ ih => exact .skip hskip (ih hfound)
  | up _ ih => exact .up (ih hfound)
  | lost | vacant => exact absurd rfl (hfound _)
  | enter hname hadmits hdir _ ih => exact .enter hname hadmits (hkept _ _ hdir) (ih hfound)
  | file hname hfile => exact .file hname (hkept _ _ hfile)
  | link hname hmake hlink => exact .link hname hmake (hkept _ _ hlink)
  | follow hname hadmits hmake hlink _ ih =>
    exact .follow hname hadmits hmake (hkept _ _ hlink) (ih hfound)

/-- **A straight walk to a place where something was has come there before as well.** -/
theorem Walks.of_kept (h : d'.Walks purpose links spot names stop) (hrooted : d.Rooted)
    (hkept : d.Kept d') (hstraight : d'.Straight spot names)
    (hthere : ∀ goal, goalFrom spot names = some goal → d.content? goal ≠ none) :
    d.Walks purpose links spot names stop := by
  -- What stands where the walk goes stood there before.
  have hold : ∀ {place rest c}, d.content? (place ++ rest) ≠ none →
      d'.content? place = some c → (rest = [] ∨ c = .directory) → d.content? place = some c := by
    intro place rest c hgoal hc hrest
    by_cases hnil : rest = []
    · rw [hnil, List.append_nil] at hgoal
      obtain ⟨c', hc'⟩ := Option.ne_none_iff_exists'.mp hgoal
      have hsame := hkept _ _ hc'
      rw [hc] at hsame
      rwa [Option.some.inj hsame]
    · rw [hrest.resolve_left hnil]
      exact hrooted.directory_above hnil hgoal
  induction h with
  | done => exact .done
  | skip hskip _ ih =>
    rw [goalFrom_skip hskip] at hthere
    exact .skip hskip (ih (hstraight.skip hskip) hthere)
  | up => exact absurd hstraight not_straight_up
  | lost hname => exact .lost hname
  | vacant hname hnone =>
    rw [hname.goalFrom_enter] at hthere
    obtain ⟨c, hc⟩ := Option.ne_none_iff_exists'.mp (hthere _ rfl)
    rw [counted_nil, List.append_nil] at hc
    exact nomatch (hkept _ _ hc).symm.trans hnone
  | enter hname hadmits hdir _ ih =>
    rw [hname.goalFrom_enter] at hthere
    exact .enter hname hadmits (hold (hthere _ rfl) hdir (.inr rfl))
      (ih (hstraight.enter hname) hthere)
  | file hname hfile =>
    rw [hname.goalFrom_enter] at hthere
    exact .file hname (hold (hthere _ rfl) hfile (.inl rfl))
  | link hname _ hlink => exact absurd hlink (hstraight.not_link hname _)
  | follow hname _ _ hlink => exact absurd hlink (hstraight.not_link hname _)

end DepositForm.Disk
