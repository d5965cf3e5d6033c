import DepositForm.Storage.Disk

/-! # Walks as derivations

A walk along a path takes its names one after the other, and what it does at a name depends on what
stands there. `Walks` says this with one rule for each thing that can happen, and `steps_eq_ok` that
a walk ends somewhere just when the rules lead there. Whatever holds of all walks is then shown by
induction on the rules, without the links and the limits that the walk counts.
-/
namespace DepositForm.Disk

/-- A name that stands for something below, and is not too long for it. -/
structure Named (name : String) : Prop where
  not_empty : name ≠ ""
  not_dot : name ≠ "."
  not_up : name ≠ ".."
  fits : name.utf8ByteSize ≤ nameLimit

/-- Only a walk that is to make a file minds a slash at the end. -/
def Admits (purpose : Purpose) (rest : List String) : Prop := ¬ (purpose = .create ∧ rest = [""])

theorem admits_nil (purpose : Purpose) : Admits purpose [] := fun h => nomatch h.2

/-- A walk from a spot along some names, over at most so many links, ends at a stop. -/
inductive Walks (d : Disk) (purpose : Purpose) : Nat → Spot → List String → Stop → Prop
  | done {links spot} : Walks d purpose links spot [] (.directory spot)
  | skip {links spot name rest stop} : (name = "" ∨ name = ".") →
      Walks d purpose links spot rest stop → Walks d purpose links spot (name :: rest) stop
  | up {links spot rest stop} :
      Walks d purpose links spot.up rest stop → Walks d purpose links spot (".." :: rest) stop
  | lost {links above name} : Named name →
      Walks d purpose links (.gone above) [name] (.vacant none)
  | vacant {links above name} : Named name → d.content? (above ++ [name]) = none →
      Walks d purpose links (.live above) [name] (.vacant (some (above ++ [name])))
  | enter {links above name rest stop} : Named name → Admits purpose rest →
      d.content? (above ++ [name]) = some .directory →
      Walks d purpose links (.live (above ++ [name])) rest stop →
      Walks d purpose links (.live above) (name :: rest) stop
  | file {links above name bytes} : Named name →
      d.content? (above ++ [name]) = some (.file bytes) →
      Walks d purpose links (.live above) [name] (.file (above ++ [name]))
  | link {links above name target} : Named name → purpose = .make →
      d.content? (above ++ [name]) = some (.link target) →
      Walks d purpose links (.live above) [name] (.link (above ++ [name]))
  | follow {links above name target rest stop} : Named name → Admits purpose rest →
      ¬ (purpose = .make ∧ rest = []) → d.content? (above ++ [name]) = some (.link target) →
      Walks d purpose links (startOf target (.live above)) (namesOf target ++ rest) stop →
      Walks d purpose (links + 1) (.live above) (name :: rest) stop

variable {d : Disk} {purpose : Purpose}

/-- What a walk that may follow so many links does after a link. -/
def afterLink (d : Disk) (purpose : Purpose) : Nat → Spot → List String → Except StorageError Stop
  | 0 => fun _ _ => .error .linkLoop
  | links + 1 => d.steps purpose links

theorem steps_eq (links : Nat) :
    d.steps purpose links = stepsWith (d.afterLink purpose links) d purpose := by
  cases links <;> rfl

section Names
variable {follow : Spot → List String → Except StorageError Stop} {spot : Spot} {name : String}
  {rest : List String}

theorem stepsWith_skip (h : name = "" ∨ name = ".") :
    stepsWith follow d purpose spot (name :: rest) = stepsWith follow d purpose spot rest := by
  rw [stepsWith.eq_def]
  exact if_pos h

theorem stepsWith_up :
    stepsWith follow d purpose spot (".." :: rest) = stepsWith follow d purpose spot.up rest := by
  rw [stepsWith.eq_def]
  rfl

/-- At a name for something below, what stands there decides. -/
theorem stepsWith_named (hname : Named name) (hadmits : Admits purpose rest) :
    stepsWith follow d purpose spot (name :: rest) =
      match spot with
      | .gone _ => if rest = [] then .ok (.vacant none) else .error .notFound
      | .live above =>
        match d.content? (above ++ [name]) with
        | none => if rest = [] then .ok (.vacant (some (above ++ [name]))) else .error .notFound
        | some .directory => stepsWith follow d purpose (.live (above ++ [name])) rest
        | some (.file _) =>
          if rest = [] then .ok (.file (above ++ [name])) else .error .notDirectory
        | some (.link target) =>
          if purpose = .make ∧ rest = [] then .ok (.link (above ++ [name]))
          else follow (startOf target spot) (namesOf target ++ rest) := by
  have hskip : ¬ (name = "" ∨ name = ".") := not_or.mpr ⟨hname.not_empty, hname.not_dot⟩
  rw [stepsWith.eq_def]
  dsimp only
  rw [if_neg hskip, if_neg hname.not_up, if_neg hadmits]
  exact if_neg (Nat.not_lt.mpr hname.fits)

/-- A walk that goes on at a name has skipped it, gone up, or looked what stands there. -/
theorem named_of_stepsWith {stop : Stop}
    (h : stepsWith follow d purpose spot (name :: rest) = .ok stop) :
    (name = "" ∨ name = ".") ∨ name = ".." ∨ Named name ∧ Admits purpose rest := by
  by_cases hskip : name = "" ∨ name = "."
  · exact .inl hskip
  by_cases hup : name = ".."
  · exact .inr (.inl hup)
  rw [stepsWith.eq_def] at h
  dsimp only at h
  rw [if_neg hskip, if_neg hup] at h
  by_cases hadmits : purpose = .create ∧ rest = [""]
  · rw [if_pos hadmits] at h
    cases h
  by_cases hlong : nameLimit < name.utf8ByteSize
  · rw [if_neg hadmits, if_pos hlong] at h
    cases h
  rw [not_or] at hskip
  exact .inr (.inr ⟨⟨hskip.1, hskip.2, hup, Nat.le_of_not_lt hlong⟩, hadmits⟩)

end Names

/-- The rules for so many links hold if they hold after a link. -/
theorem walks_of_stepsWith {links : Nat}
    (hfollow : ∀ above name rest target stop, Named name → Admits purpose rest →
      ¬ (purpose = .make ∧ rest = []) → d.content? (above ++ [name]) = some (.link target) →
      d.afterLink purpose links (startOf target (.live above)) (namesOf target ++ rest) = .ok stop →
      d.Walks purpose links (.live above) (name :: rest) stop)
    {spot : Spot} {names : List String} {stop : Stop}
    (h : stepsWith (d.afterLink purpose links) d purpose spot names = .ok stop) :
    d.Walks purpose links spot names stop := by
  induction names generalizing spot with
  | nil => cases h; exact .done
  | cons name rest ih =>
    rcases named_of_stepsWith h with hskip | rfl | ⟨hname, hadmits⟩
    · rw [stepsWith_skip hskip] at h
      exact .skip hskip (ih h)
    · rw [stepsWith_up] at h
      exact .up (ih h)
    rw [stepsWith_named hname hadmits] at h
    cases spot with
    | gone above =>
      dsimp only at h
      split at h
      · rename_i hrest
        cases h
        rw [hrest]
        exact .lost hname
      · cases h
    | live above =>
      dsimp only at h
      split at h
      · rename_i hnone
        split at h
        · rename_i hrest
          cases h
          rw [hrest]
          exact .vacant hname hnone
        · cases h
      · exact .enter hname hadmits ‹_› (ih h)
      · rename_i hfile
        split at h
        · rename_i hrest
          cases h
          rw [hrest]
          exact .file hname hfile
        · cases h
      · rename_i hlink
        split at h
        · rename_i hmake
          cases h
          rw [hmake.2]
          exact .link hname hmake.1 hlink
        · exact hfollow _ _ _ _ _ hname hadmits ‹_› hlink h

/-- **A walk ends somewhere just when the rules lead there.** -/
theorem steps_eq_ok {links : Nat} {spot : Spot} {names : List String} {stop : Stop} :
    d.steps purpose links spot names = .ok stop ↔ d.Walks purpose links spot names stop := by
  constructor
  · intro h
    induction links generalizing spot names stop with
    | zero =>
      rw [steps_eq] at h
      refine walks_of_stepsWith ?_ h
      intro _ _ _ _ _ _ _ _ _ hlink
      cases hlink
    | succ links ih =>
      rw [steps_eq] at h
      refine walks_of_stepsWith (fun _ _ _ _ _ hname hadmits hmake hlink h => ?_) h
      exact .follow hname hadmits hmake hlink (ih h)
  · intro h
    induction h with
    | done => rw [steps_eq]; rfl
    | skip hskip _ ih => rwa [steps_eq, stepsWith_skip hskip, ← steps_eq]
    | up _ ih => rwa [steps_eq, stepsWith_up, ← steps_eq]
    | lost hname => rw [steps_eq, stepsWith_named hname (admits_nil _)]; rfl
    | vacant hname hnone => rw [steps_eq, stepsWith_named hname (admits_nil _)]; simp [hnone]
    | enter hname hadmits hdir _ ih =>
      rw [steps_eq, stepsWith_named hname hadmits, ← steps_eq]
      simp only [hdir]
      exact ih
    | file hname hfile => rw [steps_eq, stepsWith_named hname (admits_nil _)]; simp [hfile]
    | link hname hmake hlink =>
      rw [steps_eq, stepsWith_named hname (admits_nil _)]
      simp [hlink, hmake]
    | follow hname hadmits hmake hlink _ ih =>
      rw [steps_eq, stepsWith_named hname hadmits]
      simp only [hlink, if_neg hmake]
      exact ih

/-- What is asked of a path before it is walked. -/
structure Walkable (path : Path) : Prop where
  no_zero : ¬ path.text.toList.contains '\x00'
  not_empty : ¬ path.text.isEmpty
  fits : ¬ pathLimit ≤ path.text.utf8ByteSize

/-- A path leads where the walk along its names does. -/
theorem walk_eq_ok {path : Path} {stop : Stop} :
    d.walk purpose path = .ok stop ↔
      Walkable path ∧ d.Walks purpose linkLimit (startOf path d.spot) (namesOf path) stop := by
  rw [← steps_eq_ok]
  unfold walk
  by_cases hzero : path.text.toList.contains '\x00'
  · rw [if_pos hzero]
    exact ⟨(fun h => nomatch h), fun h => absurd hzero h.1.no_zero⟩
  by_cases hempty : path.text.isEmpty
  · rw [if_neg hzero, if_pos hempty]
    exact ⟨(fun h => nomatch h), fun h => absurd hempty h.1.not_empty⟩
  by_cases hlong : pathLimit ≤ path.text.utf8ByteSize
  · rw [if_neg hzero, if_neg hempty, if_pos hlong]
    exact ⟨(fun h => nomatch h), fun h => absurd hlong h.1.fits⟩
  rw [if_neg hzero, if_neg hempty, if_neg hlong]
  exact ⟨fun h => ⟨⟨hzero, hempty, hlong⟩, h⟩, fun h => h.2⟩

/-! ## Where walks end -/

/-- What a walk tells of the place where it ends. -/
def Stop.Right (d : Disk) : Stop → Prop
  | .directory _ | .vacant none => True
  | .file place => ∃ bytes, d.content? place = some (.file bytes)
  | .link place => ∃ target, d.content? place = some (.link target)
  | .vacant (some place) => d.content? place = none

/-- **A walk tells right what there is.** -/
theorem Walks.right {links : Nat} {spot : Spot} {names : List String} {stop : Stop}
    (h : d.Walks purpose links spot names stop) : stop.Right d := by
  induction h with
  | done | lost => exact trivial
  | skip _ _ ih | up _ ih | enter _ _ _ _ ih | follow _ _ _ _ _ ih => exact ih
  | vacant _ hnone => exact hnone
  | file _ hfile => exact ⟨_, hfile⟩
  | link _ _ hlink => exact ⟨_, hlink⟩

end DepositForm.Disk
