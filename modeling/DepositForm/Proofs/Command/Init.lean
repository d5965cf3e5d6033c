import DepositForm.Proofs.Command.Ending
import DepositForm.Proofs.Command.Files
import DepositForm.Proofs.Storage.Grow
import DepositForm.Proofs.Toml.Lines

/-! # Making settings files changes no settings

A new settings file says nothing: it holds comments only (`read_template`). So the settings that are
loaded for a directory should be the same before and after its settings files have been made. What
could go wrong is the rest of what the making does. The directories on the way to one file are new
too, and one of them could be in the place of the other file, which is then there and cannot be
read; or a link could lead from one file to any such place.

Where the settings files lead straight to their places and neither lies below the other
(`Separate`), this does not happen. One call adds directories above the place of the file and the
file itself (`Grown`); neither is seen where the settings are looked for (`layer_of_grown`), and
the files are as separate as before. So it is shown of one call, and of any run by induction.
-/
namespace DepositForm

/-! ## The template -/

/-- The template has no line that says anything. -/
theorem Settings.entries?_template : Toml.entries? Settings.template = some [] := by
  set_option maxRecDepth 4000 in
  have hskipped : ∃ cs, Settings.template = String.ofList cs ∧
      Toml.skipLines false cs = some [] := ⟨_, rfl, by decide +kernel⟩
  obtain ⟨cs, htemplate, hcs⟩ := hskipped
  rw [htemplate]
  exact @Toml.entries?_lines [] (by simp) List.nodup_nil cs hcs

/-- A text without entries is the layer that gives nothing. -/
theorem Layer.read_of_no_entries {text : String} (h : Toml.entries? text = some []) :
    Toml.read Layer.read text = .ok {} := by
  rw [Toml.read, Toml.announce?, h]
  rfl

theorem Settings.read_template : Toml.read Layer.read Settings.template = .ok {} :=
  Layer.read_of_no_entries Settings.entries?_template

namespace Files

variable {σ : Type} {files : Files σ} {wording : Toml.Wording} {st : σ} {path : Path}

theorem layer_of_template (hthere : files.isThere st path = true)
    (hread : files.read st path = .ok Settings.template) : files.layer wording st path = .ok {} :=
  layer_of_said ⟨hthere, _, hread, Settings.read_template⟩

theorem layer_congr {st' : σ} (hthere : files.isThere st' path = files.isThere st path)
    (hread : files.read st' path = files.read st path) :
    files.layer wording st' path = files.layer wording st path := by
  rw [layer, layer, hthere, hread]

end Files

namespace Disk

variable {wording : Toml.Wording} {d d' : Disk} {path file other : Path} {e : Environment}
  {directory : Path}

/-! ## What the making of a settings file adds -/

/-- A disk on which a settings file has been made, or was to be made: there may be new directories
above its place, and in its place there may be a new file that holds the template. -/
structure Grown (d d' : Disk) (path : Path) : Prop where
  spot : d'.spot = d.spot
  rooted : d'.Rooted
  kept : d.Kept d'
  added : ∀ place c, d.content? place = none → d'.content? place = some c →
    ∃ goal, d.goal? path = some goal ∧
      (c = .directory ∧ Above place goal ∨ c = .file templateBytes ∧ place = goal)

theorem Grown.refl (h : d.Rooted) (path : Path) : d.Grown d path :=
  ⟨rfl, h, fun _ _ hc => hc, fun _ _ hnone hc => nomatch hnone.symm.trans hc⟩

theorem grown_ensureParent (hrooted : d.Rooted) (h : d.Direct path) :
    d.Grown (d.ensureParent path).2 path := by
  have hextends := extends_ensureParent d path
  refine ⟨hextends.spot, hextends.rooted hrooted, fun _ _ hc => hextends.of_some hc, ?_⟩
  intro place c hnone hc
  obtain ⟨goal, hgoal, habove⟩ :=
    addsAbove_ensureParent h place hnone (by rw [hc]; simp)
  refine ⟨goal, hgoal, .inl ⟨?_, habove⟩⟩
  rcases hextends.content place with heq | ⟨-, hdir⟩
  · exact nomatch (heq.trans hnone).symm.trans hc
  · exact Option.some.inj (hc.symm.trans hdir)

theorem Grown.put {place : Place} (h : d.Grown d' path) (hvacant : d'.content? place = none)
    (hgoal : d.goal? path = some place)
    (hrooted : (d'.put place (.file templateBytes)).Rooted) :
    d.Grown (d'.put place (.file templateBytes)) path := by
  have hopen : d'.Open place := .inl hvacant
  refine ⟨h.spot, hrooted, fun p c hc => ?_, fun p c hnone hc => ?_⟩
  · have hc' := h.kept p c hc
    have hp : p ≠ place := by
      rintro rfl
      exact nomatch hvacant.symm.trans hc'
    rw [content?_put_of_ne _ hp, hc']
  · by_cases hp : p = place
    · rw [hp, content?_put _ hopen.ne_root] at hc
      exact ⟨place, hgoal, .inr ⟨(Option.some.inj hc).symm, hp⟩⟩
    · rw [content?_put_of_ne _ hp] at hc
      exact h.added p c hnone hc

theorem grown_withSettings (hrooted : d.Rooted) (h : d.Direct path) :
    d.Grown (d.withSettings path) path := by
  have hafter := rooted_withSettings hrooted path
  unfold withSettings at hafter ⊢
  by_cases hthere : d.isThere path = true
  · rw [if_pos hthere]
    exact .refl hrooted path
  rw [if_neg hthere] at hafter ⊢
  have hparent := grown_ensureParent hrooted h
  have hextends := extends_ensureParent d path
  cases hmade : d.ensureParent path with
  | mk made d₁ =>
    rw [hmade] at hafter hparent hextends
    cases made with
    | error cause => exact hparent
    | ok u =>
      dsimp only at hafter ⊢
      cases hwrite : d₁.write path Settings.template with
      | error cause => exact hparent
      | ok d₂ =>
        rw [hwrite] at hafter
        obtain ⟨place, rfl, hwalk | hwalk⟩ := write_eq_ok hwrite
        · -- The path would lead back to a file that was there all along.
          have hreopens : d.Reopens path place :=
            ⟨Bool.eq_false_iff.mpr hthere, d₁, hmade, hwalk⟩
          exact absurd hreopens (h.not_reopens hrooted place)
        obtain ⟨-, hwalks⟩ := walk_eq_ok.mp hwalk
        have hgoal : some place = d.goal? path :=
          (hwalks.at_goal (h.extends hextends)).trans (goal?_eq hextends.spot path)
        exact hparent.put hwalks.right hgoal.symm hafter

/-! ## What is seen of it -/

theorem Grown.direct (h : d.Grown d' file) (hother : d.Direct other) : d'.Direct other := by
  refine hother.of_links h.spot fun place target hlink => ?_
  cases hc : d.content? place with
  | some c =>
    have hkept := h.kept place c hc
    rw [hlink] at hkept
    exact hkept.symm
  | none =>
    obtain ⟨goal, -, ⟨hdir, -⟩ | ⟨hfile, -⟩⟩ := h.added place _ hc hlink
    · cases hdir
    · cases hfile

/-- What was at a path is there as it was. -/
theorem Grown.of_there (h : d.Grown d' file) (hthere : d.isThere other = true) :
    d'.isThere other = true ∧ d'.read other = d.read other := by
  obtain ⟨stop, hwalk, hfound⟩ := isThere_iff.mp hthere
  obtain ⟨hpath, hwalks⟩ := walk_eq_ok.mp hwalk
  have hwalk' : d'.walk .look other = .ok stop := by
    refine walk_eq_ok.mpr ⟨hpath, ?_⟩
    rw [h.spot]
    refine hwalks.kept h.kept ?_
    rcases hfound with ⟨spot, rfl⟩ | ⟨place, rfl⟩ <;> simp
  refine ⟨isThere_iff.mpr ⟨stop, hwalk', hfound⟩, ?_⟩
  rw [read, read, hwalk, hwalk']
  rcases hfound with ⟨spot, rfl⟩ | ⟨place, rfl⟩
  · rfl
  · obtain ⟨bytes, hfile⟩ := hwalks.right
    dsimp only
    rw [hfile, h.kept _ _ hfile]

/-- Where something is found now and nothing was before, there was nothing in that place. -/
theorem Grown.vacant (h : d.Grown d' file) (hrooted : d.Rooted) (hother : d.Direct other)
    (hnot : d.isThere other = false) (hthere : d'.isThere other = true) :
    ∃ place, d.goal? other = some place ∧ d.content? place = none := by
  by_contra hall
  obtain ⟨stop, hwalk, hfound⟩ := isThere_iff.mp hthere
  obtain ⟨hpath, hwalks⟩ := walk_eq_ok.mp hwalk
  have hdirect : d'.Straight (startOf other d'.spot) (namesOf other) := h.direct hother
  rw [h.spot] at hwalks hdirect
  have hbefore := hwalks.of_kept hrooted h.kept hdirect fun goal hgoal hnone =>
    hall ⟨goal, hgoal, hnone⟩
  have hwas := isThere_iff.mpr ⟨stop, walk_eq_ok.mpr ⟨hpath, hbefore⟩, hfound⟩
  exact Bool.false_ne_true (hnot.symm.trans hwas)

/-- Where nothing was found, nothing is found now, or it is a new file that holds the template. -/
theorem Grown.of_not_there (h : d.Grown d' file) (hrooted : d.Rooted) (hother : d.Direct other)
    (hapart : ∀ place goal, d.goal? other = some place → d.goal? file = some goal →
      ¬ Above place goal)
    (hnot : d.isThere other = false) :
    d'.isThere other = false ∨
      d'.isThere other = true ∧ d'.read other = .ok Settings.template := by
  cases hthere : d'.isThere other with
  | false => exact .inl rfl
  | true =>
    refine .inr ⟨rfl, ?_⟩
    obtain ⟨place, hplace, hnone⟩ := h.vacant hrooted hother hnot hthere
    -- A new directory would stand above the file that has been made.
    have hadded : ∀ c, d'.content? place = some c → c = .file templateBytes := by
      intro c hc
      obtain ⟨goal, hfile, ⟨-, habove⟩ | ⟨hc, -⟩⟩ := h.added place c hnone hc
      · exact absurd habove (hapart place goal hplace hfile)
      · exact hc
    obtain ⟨stop, hwalk, hfound⟩ := isThere_iff.mp hthere
    obtain ⟨-, hwalks⟩ := walk_eq_ok.mp hwalk
    have hgoal : stop.place? = some place :=
      (hwalks.at_goal (h.direct hother)).trans ((goal?_eq h.spot other).trans hplace)
    rcases hfound with ⟨spot, rfl⟩ | ⟨found, rfl⟩
    · have hstands := hwalks.stands h.rooted (stands_startOf other h.rooted.stands) rfl
      cases spot with
      | live found =>
        cases hgoal
        cases hadded _ hstands
      | gone above => cases hgoal
    · cases hgoal
      obtain ⟨bytes, hbytes⟩ := hwalks.right
      rw [hadded _ hbytes] at hbytes
      exact read_of_text hwalk hbytes

/-- **A settings file that is made changes no layer**, be it its own or that of another file. -/
theorem layer_of_grown (h : d.Grown d' file) (hrooted : d.Rooted) (hother : d.Direct other)
    (hapart : ∀ place goal, d.goal? other = some place → d.goal? file = some goal →
      ¬ Above place goal) :
    Disk.files.layer wording d' other = Disk.files.layer wording d other := by
  cases hthere : d.isThere other with
  | true =>
    obtain ⟨hthere', hread⟩ := h.of_there hthere
    exact Files.layer_congr (hthere'.trans hthere.symm) hread
  | false =>
    rw [Disk.files.layer_of_not_there wording hthere]
    rcases h.of_not_there hrooted hother hapart hthere with hnot | ⟨hthere', hread⟩
    · exact Disk.files.layer_of_not_there wording hnot
    · exact Files.layer_of_template hthere' hread

end Disk

/-! ## Calls -/

/-- The settings files for a directory: the global one, if it is known, and the one of the
directory. -/
def settingsFiles (e : Environment) (directory : Path) : List Path :=
  e.globalFile?.toList ++ [localFile directory]

/-- The settings files for a directory lead straight to their places, without a step up or a link,
and no place is above another one. -/
structure Disk.Separate (d : Disk) (e : Environment) (directory : Path) : Prop where
  direct : ∀ file ∈ settingsFiles e directory, d.Direct file
  apart : ∀ file ∈ settingsFiles e directory, ∀ other ∈ settingsFiles e directory,
    ∀ place goal, d.goal? other = some place → d.goal? file = some goal → ¬ Disk.Above place goal

/-- A call that is to make a settings file, the global one or the one of a directory. -/
structure Call.Inits (c : Call) (d : Disk) (e : Environment) (directory : Path) : Prop where
  environment : c.environment = e
  command : ∃ everywhere, c.invocation.command = some (.config (.init everywhere))
  directory : Disk.files.Stands d c.invocation.directory directory

namespace Disk

variable {wording : Toml.Wording} {d : Disk} {c : Call} {e : Environment} {directory : Path}

/-- Such a call makes one of the settings files, or none. -/
theorem after_of_inits (h : c.Inits d e directory) :
    d.after c = d ∨ ∃ file ∈ settingsFiles e directory, d.after c = d.withSettings file := by
  obtain ⟨henvironment, ⟨everywhere, hcommand⟩, hdirectory⟩ := h
  have htarget := c.target?_of_init d hcommand
  rw [Files.prepared_of_stands hdirectory, henvironment] at htarget
  rw [after_eq, htarget]
  cases Disk.files.settings c.borrowed.toml d e (some directory) with
  | error failure => exact .inl rfl
  | ok settings =>
    cases everywhere with
    | false => exact .inr ⟨localFile directory, by simp [settingsFiles], rfl⟩
    | true =>
      cases hglobal : e.globalFile? with
      | none => exact .inl (by simp [Except.mapError, bind, Except.bind, pure, Except.pure])
      | some file =>
        refine .inr ⟨file, by simp [settingsFiles, hglobal], ?_⟩
        simp [Except.mapError, bind, Except.bind, pure, Except.pure]

/-! ## What is loaded -/

theorem Grown.separate (h : d.Grown d' file) (hseparate : d.Separate e directory) :
    d'.Separate e directory where
  direct other hother := h.direct (hseparate.direct other hother)
  apart := by
    intro made hmade other hother place goal hplace hgoal
    rw [goal?_eq h.spot] at hplace hgoal
    exact hseparate.apart made hmade other hother place goal hplace hgoal

/-- A settings file that is made changes nothing that is loaded. -/
theorem settings_of_grown (h : d.Grown d' file) (hfile : file ∈ settingsFiles e directory)
    (hrooted : d.Rooted) (hseparate : d.Separate e directory) :
    Disk.files.settings wording d' e (some directory) =
      Disk.files.settings wording d e (some directory) := by
  have hlayer : ∀ other ∈ settingsFiles e directory,
      Disk.files.layer wording d' other = Disk.files.layer wording d other := fun other hother =>
    layer_of_grown h hrooted (hseparate.direct other hother)
      (hseparate.apart file hfile other hother)
  have heverywhere : Disk.files.layer? wording d' e.globalFile? =
      Disk.files.layer? wording d e.globalFile? := by
    cases hknown : e.globalFile? with
    | none => rfl
    | some known => exact hlayer known (by simp [settingsFiles, hknown])
  have hhere : Disk.files.layer? wording d' (some (localFile directory)) =
      Disk.files.layer? wording d (some (localFile directory)) :=
    hlayer _ (by simp [settingsFiles])
  rw [Files.settings, Files.settings, Option.map_some, heverywhere, hhere]

/-- The directory that a call is for is found from where one stands. -/
theorem inits_of_spot (h : c.Inits d e directory) (hspot : d'.spot = d.spot) :
    c.Inits d' e directory := by
  refine ⟨h.environment, h.command, ?_⟩
  have hworkplace : Disk.files.workplace d' = Disk.files.workplace d := by
    change workplace d' = workplace d
    rw [workplace, workplace, hspot]
  cases h.directory with
  | told htold => exact .told htold
  | here htold hhere => exact .here htold (hworkplace.trans hhere)

/-! ## Runs -/

/-- A disk on which the settings are those of another one, and on which settings files can be made
as on that one. -/
structure Steady (d d' : Disk) (e : Environment) (directory : Path) : Prop where
  spot : d'.spot = d.spot
  rooted : d'.Rooted
  separate : d'.Separate e directory
  settings : ∀ wording, Disk.files.settings wording d' e (some directory) =
    Disk.files.settings wording d e (some directory)

theorem Steady.refl (hrooted : d.Rooted) (hseparate : d.Separate e directory) :
    d.Steady d e directory := ⟨rfl, hrooted, hseparate, fun _ => rfl⟩

theorem Steady.after (h : d.Steady d' e directory) (hc : c.Inits d e directory) :
    d.Steady (d'.after c) e directory := by
  rcases after_of_inits (inits_of_spot hc h.spot) with hafter | ⟨file, hfile, hafter⟩
  · rwa [hafter]
  have hgrown := grown_withSettings h.rooted (h.separate.direct file hfile)
  rw [← hafter] at hgrown
  exact ⟨hgrown.spot.trans h.spot, hgrown.rooted, hgrown.separate h.separate,
    fun wording => (settings_of_grown hgrown hfile h.rooted h.separate).trans (h.settings wording)⟩

theorem Steady.afterAll {calls : List Call} (h : d.Steady d' e directory)
    (hcalls : ∀ c ∈ calls, c.Inits d e directory) : d.Steady (d'.afterAll calls) e directory := by
  induction calls generalizing d' with
  | nil => exact h
  | cons c rest ih =>
    obtain ⟨hc, hrest⟩ := List.forall_mem_cons.mp hcalls
    exact ih (h.after hc) hrest

/-- **To make settings files changes no settings.** Whatever calls are to make the settings files of
a directory, and whether they make them or fail, the settings of that directory are loaded as
before, or cannot be loaded for the same reason. A file that holds the template changes no settings
anywhere. -/
theorem settings_kept_by_init (wording : Toml.Wording) {calls : List Call} (hrooted : d.Rooted)
    (hseparate : d.Separate e directory) (hcalls : ∀ c ∈ calls, c.Inits d e directory) :
    (∃ r, Finds d (storage.loadSettings wording e (some directory)) r ∧
      Finds (d.afterAll calls) (storage.loadSettings wording e (some directory)) r) ∧
    ∀ (d : Disk) (path : Path), d.isThere path = true → d.read path = .ok Settings.template →
      ∀ s, Finds d (storage.mergeFile wording s path) (.ok s) := by
  rw [storage_eq]
  constructor
  · have hsteady := (Steady.refl hrooted hseparate).afterAll hcalls
    refine ⟨_, Disk.files.finds_loadSettings wording d e (some directory), ?_⟩
    rw [← hsteady.settings]
    exact Disk.files.finds_loadSettings wording _ e (some directory)
  · intro d path hthere hread s
    have hmerge := Disk.files.finds_mergeFile wording d s path
    rw [Files.layer_of_template hthere hread] at hmerge
    exact hmerge

end Disk

/-- An environment with a home and one setting. -/
def Environment.showing : Environment where
  bindings := [("HOME", "/home"), ("RDMDEPOSIT__SHOW_PATHS", "yes")]

theorem Environment.globalFile?_showing :
    showing.globalFile? = some ⟨"/home/.config/rdm-deposit/rdm-deposit.toml"⟩ := by
  decide

theorem Disk.separate_settled : settled.Separate .showing ⟨"/work"⟩ := by
  have hfiles : settingsFiles .showing ⟨"/work"⟩ =
      [⟨"/home/.config/rdm-deposit/rdm-deposit.toml"⟩, ⟨"/work/.rdm-deposit.toml"⟩] := by
    rw [settingsFiles, Environment.globalFile?_showing]
    decide
  have hup : ∀ file ∈ settingsFiles .showing ⟨"/work"⟩, ".." ∉ counted (namesOf file) := by
    rw [hfiles]
    decide
  have hapart : ∀ file ∈ settingsFiles .showing ⟨"/work"⟩,
      ∀ other ∈ settingsFiles .showing ⟨"/work"⟩,
        ∀ place ∈ settled.goal? other, ∀ goal ∈ settled.goal? file, ¬ Above place goal := by
    rw [hfiles]
    decide
  exact ⟨fun file hfile => direct_of_contents (hup file hfile) (by simp [settled]),
    fun file hfile other hother place goal hplace hgoal =>
      hapart file hfile other hother place hplace goal hgoal⟩

theorem Disk.finds_settled (wording : Toml.Wording) :
    Finds settled (storage.loadSettings wording .showing (some ⟨"/work"⟩))
      (.ok ⟨"person", ".", true⟩) := by
  have hhere : Disk.files.layer wording settled (localFile ⟨"/work"⟩) =
      .ok { category := some "person" } := by
    have hread : settled.read (localFile ⟨"/work"⟩) = .ok "category = \"person\"\n" :=
      read_of_text rfl rfl
    have hentries : Toml.entries? "category = \"person\"\n" =
        some [("category", .token (.text "person"))] := rfl
    refine Files.layer_of_said ⟨by decide, _, hread, ?_⟩
    rw [Toml.read, Toml.announce?, hentries]
    rfl
  have heverywhere : Disk.files.layer wording settled
      ⟨"/home/.config/rdm-deposit/rdm-deposit.toml"⟩ = .ok {} :=
    Disk.files.layer_of_not_there wording (by decide)
  have hload := Disk.files.finds_loadSettings wording settled .showing (some ⟨"/work"⟩)
  rw [Files.settings, Environment.globalFile?_showing, Option.map_some, Files.layer?, Files.layer?,
    heverywhere, hhere] at hload
  exact hload

/-- A call for a settings file in the directory where one stands, or for the global one. -/
def Call.init (borrowed : Command.Borrowed) (everywhere : Bool) : Call where
  borrowed := borrowed
  environment := .showing
  coloured := false
  invocation := { command := some (.config (.init everywhere)) }

/-- There is a settings file already, so the first call fails. The second makes the global file and
the directories for it, and the third fails again. -/
theorem Disk.loaded_after_init :
    settled.Rooted ∧ settled.Separate .showing ⟨"/work"⟩ ∧
      ∀ borrowed, let calls := [Call.init borrowed false, .init borrowed true, .init borrowed true]
        (∀ c ∈ calls, c.Inits settled .showing ⟨"/work"⟩) ∧
          ∀ wording, Finds (settled.afterAll calls)
            (storage.loadSettings wording .showing (some ⟨"/work"⟩))
            (.ok ⟨"person", ".", true⟩) := by
  have hrooted : settled.Rooted := rooted_of_contents rfl (by simp [settled, content?])
  refine ⟨hrooted, separate_settled, fun borrowed => ?_⟩
  intro calls
  have hinits : ∀ everywhere, (Call.init borrowed everywhere).Inits settled .showing ⟨"/work"⟩ :=
    fun everywhere => ⟨rfl, ⟨everywhere, rfl⟩, .here rfl rfl⟩
  have hcalls : ∀ c ∈ calls, c.Inits settled .showing ⟨"/work"⟩ := by
    simp [calls, hinits]
  refine ⟨hcalls, fun wording => ?_⟩
  obtain ⟨⟨r, hbefore, hafter⟩, -⟩ :=
    settings_kept_by_init wording hrooted separate_settled hcalls
  rwa [hbefore.unique (finds_settled wording)] at hafter

end DepositForm
