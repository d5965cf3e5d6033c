import DepositForm.Proofs.Settings.Layers
import Mathlib.Data.List.Induction

/-! # Chains of settings files

Settings files may be laid over some settings one after the other, in any number. A file that is not
there is passed over, and so is one that cannot be used, although its step fails. So each step comes
to the same as laying a layer over the settings, the one that the file gives or an empty one
(`said`), and never to laying a part of it.

A field therefore has its value from the last file that gives it, and where none does it keeps the
one it had. Each field is settled for itself: read from the end, the chain is a list of sources of
which the first that gives anything counts (`FirstGiven`).
-/
namespace DepositForm

namespace Storage

variable {m : Type → Type} [Monad m] (wording : Toml.Wording)

/-- Lays a file over settings. If that fails the settings stay. -/
def tryMerge (s : Storage m) (settings : Settings) (path : Path) : m Settings := do
  match ← (s.mergeFile wording settings path).run with
  | .ok merged => return merged
  | .error _ => return settings

/-- Lays files over settings, one after the other. -/
def mergeAll (s : Storage m) (settings : Settings) (paths : List Path) : m Settings :=
  paths.foldlM (s.tryMerge wording) settings

end Storage

namespace Files

variable {σ : Type} (files : Files σ) (wording : Toml.Wording) (st : σ)

/-- What the file at a path says; one that cannot be used says nothing. -/
def said (path : Path) : Layer :=
  match files.layer wording st path with
  | .ok layer => layer
  | .error _ => {}

/-- Every field of settings has its value from the last of some files that gives it, or from the
settings that they are laid over. -/
structure LastGiven (base : Settings) (paths : List Path) (s : Settings) : Prop where
  category : FirstGiven base.category
    (paths.reverse.map fun path => files.Gives st (some path) Layer.category) s.category
  pathSeparator : FirstGiven base.pathSeparator
    (paths.reverse.map fun path => files.Gives st (some path) Layer.pathSeparator) s.pathSeparator
  showPaths : FirstGiven base.showPaths
    (paths.reverse.map fun path => files.Gives st (some path) Layer.showPaths) s.showPaths

variable {files wording st} {path : Path}

theorem layer_of_faulty (h : files.Faulty wording st (some path)) :
    ∃ message, files.layer wording st path = .error (.settings message) := by
  obtain ⟨p, hp, message, hfault⟩ := h
  cases hp
  exact ⟨message, layer_of_fault hfault⟩

/-- Every file gives for a field what is in the layer that it says. -/
theorem gives_iff_said {α : Type} {field : Layer → Option α} (hfield : field {} = none) (v : α) :
    files.Gives st (some path) field v ↔ field (files.said wording st path) = some v := by
  by_cases hfaulty : files.Faulty wording st (some path)
  · obtain ⟨message, hlayer⟩ := layer_of_faulty hfaulty
    rw [said, hlayer, hfield]
    refine iff_of_false ?_ (fun h => nomatch h)
    rintro ⟨p, hp, layer, hsays, -⟩
    cases hp
    exact not_faulty_of_said hsays hfaulty
  · obtain ⟨layer, hlayer⟩ := layer?_of_not_faulty hfaulty
    have hsaid : files.said wording st path = layer := by
      rw [said, show files.layer wording st path = .ok layer from hlayer]
    rw [hsaid]
    exact gives_iff hlayer hfield v

/-! ## One step -/

variable (files wording st)

/-- A step fails just when its file is there and cannot be used. -/
theorem merge_fails_iff (s : Settings) (path : Path) :
    (∃ failure, Finds st (files.storage.mergeFile wording s path) (.error failure)) ↔
      files.Faulty wording st (some path) := by
  have hmerge := files.finds_mergeFile wording st s path
  constructor
  · rintro ⟨failure, hfail⟩
    by_contra hfaulty
    obtain ⟨layer, hlayer⟩ := layer?_of_not_faulty hfaulty
    rw [show files.layer wording st path = .ok layer from hlayer] at hmerge
    cases hmerge.unique hfail
  · intro hfaulty
    obtain ⟨message, hlayer⟩ := layer_of_faulty hfaulty
    rw [hlayer] at hmerge
    exact ⟨_, hmerge⟩

theorem merge_succeeds_iff (s : Settings) (path : Path) :
    (∃ merged, Finds st (files.storage.mergeFile wording s path) (.ok merged)) ↔
      ¬ files.Faulty wording st (some path) := by
  rw [← files.merge_fails_iff wording st s path]
  have hmerge := files.finds_mergeFile wording st s path
  cases hresult :
      (do return s.under (← files.layer wording st path) : Except DataError Settings) with
  | ok merged =>
    rw [hresult] at hmerge
    exact iff_of_true ⟨merged, hmerge⟩ fun ⟨_, hfail⟩ => nomatch hmerge.unique hfail
  | error failure =>
    rw [hresult] at hmerge
    exact iff_of_false (fun ⟨_, hok⟩ => nomatch hmerge.unique hok)
      (not_not_intro ⟨failure, hmerge⟩)

theorem merge_of_not_there (s : Settings) {path : Path} (h : files.isThere st path = false) :
    Finds st (files.storage.mergeFile wording s path) (.ok s) := by
  have hmerge := files.finds_mergeFile wording st s path
  rw [files.layer_of_not_there wording h] at hmerge
  exact hmerge

/-- A step lays what its file says over the settings, also if it fails. -/
theorem run_tryMerge (s : Settings) (path : Path) :
    (files.storage.tryMerge wording s path).run st =
      (s.under (files.said wording st path), st) := by
  have hmerge := files.finds_mergeFile wording st s path
  unfold Finds at hmerge
  rw [Storage.tryMerge, StateT.run_bind, hmerge, said]
  cases files.layer wording st path <;> rfl

/-! ## The whole chain -/

theorem run_mergeAll (base : Settings) (paths : List Path) :
    (files.storage.mergeAll wording base paths).run st =
      ((paths.map (files.said wording st)).foldl Settings.under base, st) := by
  induction paths generalizing base with
  | nil => rfl
  | cons path rest ih =>
    rw [Storage.mergeAll, List.foldlM_cons, StateT.run_bind, run_tryMerge]
    exact ih _

/-- A field that is read off the settings has the value that the last file gave it, whatever the
other fields are. -/
theorem firstGiven_iff {α : Type} (field : Layer → Option α) (get : Settings → α)
    (hfield : field {} = none)
    (hget : ∀ (s : Settings) layer, get (s.under layer) = (field layer).getD (get s))
    (base : Settings) (paths : List Path) (v : α) :
    FirstGiven (get base) (paths.reverse.map fun path => files.Gives st (some path) field) v ↔
      v = get ((paths.map (files.said wording st)).foldl Settings.under base) := by
  -- The last file is the first source, and it is laid over what the files before it make.
  induction paths using List.reverseRecOn generalizing v with
  | nil => exact firstGiven_nil v
  | append_singleton front path ih =>
    rw [List.map_append, List.foldl_append, List.map_singleton, List.foldl_cons, List.foldl_nil,
      hget, List.reverse_concat, List.map_cons]
    exact firstGiven_cons (gives_iff_said hfield) ih v

theorem lastGiven_iff (base : Settings) (paths : List Path) (s : Settings) :
    files.LastGiven st base paths s ↔
      s = (paths.map (files.said wording st)).foldl Settings.under base := by
  have hcategory := files.firstGiven_iff wording st Layer.category Settings.category rfl
    (fun _ _ => rfl) base paths
  have hseparator := files.firstGiven_iff wording st Layer.pathSeparator Settings.pathSeparator rfl
    (fun _ _ => rfl) base paths
  have hshown := files.firstGiven_iff wording st Layer.showPaths Settings.showPaths rfl
    (fun _ _ => rfl) base paths
  constructor
  · rintro ⟨hc, hp, hs⟩
    obtain ⟨category, separator, shown⟩ := s
    have hc := (hcategory category).mp hc
    have hp := (hseparator separator).mp hp
    have hs := (hshown shown).mp hs
    rw [hc, hp, hs]
  · rintro rfl
    exact ⟨(hcategory _).mpr rfl, (hseparator _).mpr rfl, (hshown _).mpr rfl⟩

/-- **In a chain of settings files each field has its value from the last file that gives it.** The
chain comes to an end whatever is in the files, which stay as they are, and the settings that it
comes to are the only ones with every field from the last file that gives it. Of its steps, just
those fail whose file is there and cannot be used, and one whose file is not there changes
nothing. -/
theorem merged_by_last_given (base : Settings) (paths : List Path) :
    (∃ merged, (files.storage.mergeAll wording base paths).run st = (merged, st) ∧
      ∀ s, files.LastGiven st base paths s ↔ s = merged) ∧
    ∀ (s : Settings) (path : Path),
      (files.isThere st path = false → Finds st (files.storage.mergeFile wording s path) (.ok s)) ∧
      ((∃ failure, Finds st (files.storage.mergeFile wording s path) (.error failure)) ↔
        files.Faulty wording st (some path)) ∧
      ((∃ merged, Finds st (files.storage.mergeFile wording s path) (.ok merged)) ↔
        ¬ files.Faulty wording st (some path)) := by
  refine ⟨⟨_, files.run_mergeAll wording st base paths,
    files.lastGiven_iff wording st base paths⟩, ?_⟩
  intro s path
  exact ⟨files.merge_of_not_there wording st s, files.merge_fails_iff wording st s path,
    files.merge_succeeds_iff wording st s path⟩

end Files

/-- Four paths on the disk with two settings files: the local one, one that leads nowhere, a
directory, and the global one. -/
def Disk.chain : List Path :=
  [localFile ⟨"/work"⟩, ⟨"/gone.toml"⟩, ⟨"/work"⟩, ⟨"/xdg/rdm-deposit/rdm-deposit.toml"⟩]

/-- What stands between names is from the last file, although the first one gives it too; whether
paths are shown is from the first one. The step with the directory fails and changes nothing. -/
theorem Disk.merged_chain :
    Disk.files.isThere Disk.layered ⟨"/gone.toml"⟩ = false ∧
    ∀ wording,
      Finds Disk.layered (Disk.files.storage.mergeFile wording {} ⟨"/gone.toml"⟩) (.ok {}) ∧
      (∃ failure, Finds Disk.layered (Disk.files.storage.mergeFile wording {} ⟨"/work"⟩)
        (.error failure)) ∧
      (Disk.files.storage.mergeAll wording {} Disk.chain).run Disk.layered =
        (⟨"person", "/", true⟩, Disk.layered) := by
  have hgone : Disk.files.isThere Disk.layered ⟨"/gone.toml"⟩ = false := by decide
  refine ⟨hgone, fun wording => ?_⟩
  obtain ⟨⟨merged, hrun, hlast⟩, hsteps⟩ :=
    Disk.files.merged_by_last_given wording Disk.layered {} Disk.chain
  have hdirectory : Disk.files.Fault wording Disk.layered ⟨"/work"⟩
      ("read /work: " ++ StorageError.isDirectory.message) := .unreadable (by decide) rfl
  refine ⟨(hsteps {} ⟨"/gone.toml"⟩).1 hgone,
    (hsteps {} ⟨"/work"⟩).2.1.mpr ⟨_, rfl, _, hdirectory⟩, ?_⟩
  have hsaid : Disk.files.LastGiven Disk.layered {} Disk.chain ⟨"person", "/", true⟩ := by
    rw [Disk.files.lastGiven_iff wording]
    simp only [chain, List.map_cons, List.map_nil, Files.said,
      Files.layer_of_said says_here_layered, Disk.files.layer_of_not_there _ hgone,
      Files.layer_of_fault hdirectory, Files.layer_of_said says_everywhere_layered]
    rfl
  rw [hrun, ← (hlast _).mp hsaid]

end DepositForm
