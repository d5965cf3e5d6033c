import DepositForm.Proofs.Command.Effect
import DepositForm.Proofs.Settings.Layers
import DepositForm.Proofs.Storage.Written
import DepositForm.Proofs.Toml.Lines

/-! # Settings that are stored and loaded again

Settings are written as one line per field, which cannot fail, and read back as a layer that gives
every field. So a file that holds what was written for some settings brings just these settings
back, whatever lies below (`read_toml`).

Settings that hold somewhere have the variables of the environment in them already. These lie over
the stored file once more when settings are loaded again, and change nothing then
(`under_under_self`); so what `config show` prints may be stored as the settings file of a directory
without any change to the settings that hold there (`shown_settings_load_back`). On a disk storing
is writing, and that may change what another path leads to: the global file may be a link to the
place that is written. It is not spoiled by that, because it then says the same
(`shown_settings_stored`).
-/
namespace DepositForm

/-! ## Written and read -/

namespace Settings

/-- The layer that gives all fields of some settings. -/
def fullLayer (s : Settings) : Layer :=
  { category := some s.category
    pathSeparator := some s.pathSeparator
    showPaths := some s.showPaths }

/-- Nothing is left of what lies below a layer that gives all fields. -/
@[simp] theorem under_fullLayer (base s : Settings) : base.under s.fullLayer = s := rfl

/-- A layer changes nothing when it is laid over itself. -/
@[simp] theorem under_under_self (s : Settings) (layer : Layer) :
    (s.under layer).under layer = s.under layer := by
  obtain ⟨category, separator, shown⟩ := layer
  cases category <;> cases separator <;> cases shown <;> rfl

/-- The lines that settings are written as. -/
def lines (s : Settings) : List Toml.Line := [
  ⟨"category", Toml.writeText s.category, .token (.text s.category)⟩,
  ⟨"path_separator", Toml.writeText s.pathSeparator, .token (.text s.pathSeparator)⟩,
  ⟨"show_paths", Toml.writeBool s.showPaths, .token (.bool s.showPaths)⟩]

theorem toml_eq (s : Settings) : s.toml = String.ofList (s.lines.flatMap Toml.Line.written) := by
  simp [toml, lines, Toml.Line.written]

theorem sound_lines (s : Settings) : ∀ l ∈ s.lines, l.Sound := by
  have hcategory : Toml.Bare "category" := ⟨by decide, List.all_eq_true.mp rfl⟩
  have hseparator : Toml.Bare "path_separator" := ⟨by decide, List.all_eq_true.mp rfl⟩
  have hshown : Toml.Bare "show_paths" := ⟨by decide, List.all_eq_true.mp rfl⟩
  simp only [lines, List.forall_mem_cons]
  exact ⟨⟨hcategory, Toml.stands_writeText s.category⟩,
    ⟨hseparator, Toml.stands_writeText s.pathSeparator⟩,
    ⟨hshown, Toml.stands_writeBool s.showPaths⟩, by simp⟩

theorem nodup_keys_lines (s : Settings) : (s.lines.map Toml.Line.key).Nodup := by simp [lines]

/-- What is written for settings is read as the layer that gives all their fields, also with blank
lines behind it. -/
theorem read_toml (s : Settings) {rest : List Char} (h : Toml.skipLines false rest = some []) :
    Toml.read Layer.read (s.toml ++ String.ofList rest) = .ok s.fullLayer := by
  have hentries := Toml.entries?_lines s.sound_lines s.nodup_keys_lines h
  rw [String.ofList_append, ← toml_eq] at hentries
  rw [Toml.read, Toml.announce?, hentries]
  rfl

theorem read_stored (s : Settings) : Toml.read Layer.read s.toml = .ok s.fullLayer := by
  simpa using @read_toml s [] rfl

/-- Printed as a line, it is read as the same layer. -/
theorem read_printed (s : Settings) :
    Toml.read Layer.read (Command.unlines [s.toml]) = .ok s.fullLayer := by
  have hprinted : Command.unlines [s.toml] = s.toml ++ String.ofList ['\n'] := by
    simp [Command.unlines, String.join]
  rw [hprinted]
  exact s.read_toml rfl

end Settings

/-! ## Loaded again -/

namespace Files

variable {σ : Type} {files : Files σ} {wording : Toml.Wording} {st before : σ} {s : Settings}

/-- Settings that hold somewhere have the variables of the environment in them. -/
theorem exists_eq_under {e : Environment} {directory : Option Path}
    (h : files.settings wording st e directory = .ok s) :
    ∃ base : Settings, s = base.under e.layer := by
  unfold settings at h
  cases heverywhere : files.layer? wording st e.globalFile? with
  | error failure =>
    rw [heverywhere] at h
    cases h
  | ok everywhere =>
    cases hhere : files.layer? wording st (directory.map localFile) with
    | error failure =>
      rw [heverywhere, hhere] at h
      cases h
    | ok here =>
      rw [heverywhere, hhere] at h
      cases h
      exact ⟨_, rfl⟩

/-- Where settings are loaded, the global file is not at fault. -/
theorem not_faulty_of_finds {e : Environment} {directory : Option Path}
    (h : Finds st (files.storage.loadSettings wording e directory) (.ok s)) :
    ¬ files.Faulty wording st e.globalFile? := by
  rintro ⟨p, hp, message, hfault⟩
  have hsettings := (files.finds_loadSettings wording st e directory).unique h
  rw [settings, hp, layer?, layer_of_fault hfault] at hsettings
  cases hsettings

/-- Settings that have held in a directory hold there again once its file gives all of them. -/
theorem finds_again {e : Environment} {directory : Path}
    (hsaid : files.Says st (localFile directory) s.fullLayer)
    (hglobal : ¬ files.Faulty wording st e.globalFile?)
    (hbefore : Finds before (files.storage.loadSettings wording e (some directory)) (.ok s)) :
    Finds st (files.storage.loadSettings wording e (some directory)) (.ok s) := by
  have hsettings : files.settings wording before e (some directory) = .ok s :=
    (files.finds_loadSettings wording before e (some directory)).unique hbefore
  obtain ⟨base, hbase⟩ := exists_eq_under hsettings
  obtain ⟨everywhere, heverywhere⟩ := layer?_of_not_faulty hglobal
  have hhere : files.layer? wording st (some (localFile directory)) = .ok s.fullLayer :=
    layer_of_said hsaid
  -- The variables are in the settings already, and lie over the same values now.
  have hagain : files.settings wording st e (some directory) = .ok s := by
    rw [settings, heverywhere, Option.map_some, hhere]
    exact congrArg Except.ok (by rw [Settings.under_fullLayer, hbase, Settings.under_under_self])
  exact hagain ▸ files.finds_loadSettings wording st e (some directory)

/-- **Settings that are stored load back unchanged.** A file that holds what is written for some
settings gives these settings, whatever they are laid over. So it gives them again if it is the
settings file of a directory in which they have held before. -/
theorem saved_settings_load_back {path : Path} (hthere : files.isThere st path = true)
    (hread : files.read st path = .ok s.toml) :
    (∀ base, Finds st (files.storage.mergeFile wording base path) (.ok s)) ∧
    ∀ {before : σ} {e : Environment} {directory : Path}, path = localFile directory →
      Finds before (files.storage.loadSettings wording e (some directory)) (.ok s) →
      ¬ files.Faulty wording st e.globalFile? →
      Finds st (files.storage.loadSettings wording e (some directory)) (.ok s) := by
  have hsaid : files.Says st path s.fullLayer := ⟨hthere, _, hread, s.read_stored⟩
  refine ⟨fun base => ?_, ?_⟩
  · have hmerge := files.finds_mergeFile wording st base path
    rw [layer_of_said hsaid] at hmerge
    exact hmerge
  · rintro before e directory rfl hbefore hglobal
    exact finds_again hsaid hglobal hbefore

end Files

/-- Settings with a text that no form without escapes can hold, and an empty one. -/
def Settings.awkward : Settings where
  category := "\r\n\x01 three \"\"\"\" and ''' and \\"
  pathSeparator := ""
  showPaths := true

/-- A disk that holds them as the settings of a directory. -/
def Disk.saved : Disk where
  contents := [
    (["work"], .directory),
    (["work", ".rdm-deposit.toml"], .file Settings.awkward.toml.toUTF8)]

/-- An environment that gives the same settings where there are no files. -/
def Environment.awkward : Environment where
  bindings := [
    ("RDMDEPOSIT__CATEGORY", Settings.awkward.category),
    ("RDMDEPOSIT__PATH_SEPARATOR", Settings.awkward.pathSeparator),
    ("RDMDEPOSIT__SHOW_PATHS", "yes")]

theorem Disk.awkward_settings_load_back :
    (Disk.files.isThere Disk.saved (localFile ⟨"/work"⟩) = true ∧
      Disk.files.read Disk.saved (localFile ⟨"/work"⟩) = .ok Settings.awkward.toml) ∧
    ∀ wording,
      Finds Disk.saved (Disk.files.storage.mergeFile wording {} (localFile ⟨"/work"⟩))
        (.ok Settings.awkward) ∧
      Finds Disk.saved
        (Disk.files.storage.loadSettings wording Environment.awkward (some ⟨"/work"⟩))
        (.ok Settings.awkward) := by
  have hthere : Disk.files.isThere Disk.saved (localFile ⟨"/work"⟩) = true := by decide
  have hwalk : Disk.saved.walk .look (localFile ⟨"/work"⟩) =
      .ok (.file ["work", ".rdm-deposit.toml"]) := rfl
  have hread : Disk.saved.read (localFile ⟨"/work"⟩) = .ok Settings.awkward.toml :=
    Disk.read_of_text hwalk rfl
  refine ⟨⟨hthere, hread⟩, fun wording => ?_⟩
  have hbefore : Finds ({} : Disk)
      (Disk.files.storage.loadSettings wording Environment.awkward (some ⟨"/work"⟩))
      (.ok Settings.awkward) := rfl
  have hglobal : ¬ Disk.files.Faulty wording Disk.saved Environment.awkward.globalFile? := by
    rintro ⟨p, hp, -⟩
    exact nomatch hp
  obtain ⟨hmerge, hload⟩ := Files.saved_settings_load_back hthere hread
  exact ⟨hmerge {}, hload rfl hbefore hglobal⟩

/-! ## Shown and stored -/

namespace Files

variable {σ : Type} {borrowed : Command.Borrowed} {files : Files σ} {st before : σ} {s : Settings}

/-- `config show` prints the settings that hold in a directory, and nothing else. -/
theorem run_show {e : Environment} {coloured : Command.Coloured} {i : Invocation} {directory : Path}
    (hcommand : i.command = some (.config .show)) (hdirectory : i.directory = some directory)
    (h : Finds st (files.storage.loadSettings borrowed.toml e (some directory)) (.ok s)) :
    (Command.run borrowed files.storage e coloured i).run.run st =
      (.ok { lines := [s.toml] }, st) := by
  have hsettings : files.settings borrowed.toml st e (some directory) = .ok s :=
    (files.finds_loadSettings borrowed.toml st e (some directory)).unique h
  have hprepared : files.prepared borrowed.toml st e i.directory = .ok (directory, s) := by
    rw [hdirectory]
    change (do
      let settings ← (files.settings borrowed.toml st e (some directory)).mapError Failure.data
      return (directory, settings)) = _
    rw [hsettings]
    rfl
  have hending :=
    Command.ending_work borrowed files e coloured hcommand (fun _ h => nomatch h) {} st
  rw [hprepared] at hending
  rw [Command.run_run, hending]
  rfl

/-- **What `config show` prints may be stored.** If it is stored, as it is printed, as the settings
file of the directory it is printed for, then the settings that hold there stay what they are. -/
theorem shown_settings_load_back {e : Environment} (coloured : Command.Coloured) {i : Invocation}
    {directory : Path} (hcommand : i.command = some (.config .show))
    (hdirectory : i.directory = some directory)
    (hbefore : Finds before (files.storage.loadSettings borrowed.toml e (some directory)) (.ok s)) :
    (Command.run borrowed files.storage e coloured i).run.run before =
        (.ok { lines := [s.toml] }, before) ∧
      ∀ st, files.isThere st (localFile directory) = true →
        files.read st (localFile directory) = .ok (Command.unlines [s.toml]) →
        ¬ files.Faulty borrowed.toml st e.globalFile? →
        Finds st (files.storage.loadSettings borrowed.toml e (some directory)) (.ok s) :=
  ⟨run_show hcommand hdirectory hbefore, fun _ hthere hread hglobal =>
    finds_again ⟨hthere, _, hread, s.read_printed⟩ hglobal hbefore⟩

end Files

namespace Disk

variable {wording : Toml.Wording} {borrowed : Command.Borrowed} {d d' : Disk} {s : Settings}

/-- Writing a settings file that says something spoils no other one. -/
theorem not_faulty_of_write {path : Path} {text : String} {layer : Layer} {known : Option Path}
    (h : ¬ Disk.files.Faulty wording d known) (hwrite : d.write path text = .ok d')
    (hsaid : Toml.read Layer.read text = .ok layer) : ¬ Disk.files.Faulty wording d' known := by
  rintro ⟨p, rfl, message, hfault⟩
  -- A path reads the written text, which says something, or was at fault before.
  cases hfault with
  | @unreadable cause hthere hread =>
    rcases read_after_write hwrite hthere with hnew | ⟨hthere', hsame⟩
    · cases hnew.symm.trans hread
    · exact h ⟨p, rfl, _, .unreadable hthere' (hsame.symm.trans hread)⟩
  | @undecodable old message hthere hread hdecode =>
    rcases read_after_write hwrite hthere with hnew | ⟨hthere', hsame⟩
    · cases hnew.symm.trans hread
      cases hsaid.symm.trans hdecode
    · exact h ⟨p, rfl, _, .undecodable hthere' (hsame.symm.trans hread) hdecode⟩

/-- **What `config show` prints may be written to a disk.** If it can be written as the settings
file of the directory it is printed for, the settings that hold there stay what they are. -/
theorem shown_settings_stored {e : Environment} (coloured : Command.Coloured) {i : Invocation}
    {directory : Path} (hcommand : i.command = some (.config .show))
    (hdirectory : i.directory = some directory)
    (hbefore : Finds d (Disk.storage.loadSettings borrowed.toml e (some directory)) (.ok s)) :
    (Command.run borrowed Disk.storage e coloured i).run.run d = (.ok { lines := [s.toml] }, d) ∧
      ∀ d', d.write (localFile directory) (Command.unlines [s.toml]) = .ok d' →
        Finds d' (Disk.storage.loadSettings borrowed.toml e (some directory)) (.ok s) := by
  rw [storage_eq] at hbefore ⊢
  obtain ⟨hrun, hagain⟩ := Files.shown_settings_load_back coloured hcommand hdirectory hbefore
  refine ⟨hrun, fun d' hwrite => ?_⟩
  obtain ⟨hthere, hread⟩ := read_of_write hwrite
  have hglobal : ¬ Disk.files.Faulty borrowed.toml d e.globalFile? :=
    Files.not_faulty_of_finds hbefore
  exact hagain d' hthere hread (not_faulty_of_write hglobal hwrite s.read_printed)

end Disk

end DepositForm
