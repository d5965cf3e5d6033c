import DepositForm.Proofs.Command.Printed
import DepositForm.Proofs.Storage.Loading

/-! # What a command does to the files

Everything that a command does before its own work, and all work but the making of settings files,
leaves the files as they were. So a call of the program changes the disk in one way only: if it
comes as far as making a settings file (`Call.target?`), the disk is the one after that file has
been made (`after_eq`).
-/
namespace DepositForm

namespace Files

variable {σ : Type} (files : Files σ) (wording : Toml.Wording) (st : σ)

/-! ## Before the work of a command -/

/-- The directory whose settings hold. -/
def directory (told : Option Path) : Except Failure Path :=
  match told with
  | some directory => .ok directory
  | none => (files.workplace st).mapError (.storage "get current directory")

/-- The directory whose settings hold, and these settings. -/
def prepared (e : Environment) (told : Option Path) : Except Failure (Path × Settings) := do
  let directory ← files.directory st told
  let settings ← (files.settings wording st e (some directory)).mapError Failure.data
  return (directory, settings)

theorem finds_findDirectory (told : Option Path) :
    Finds st (Command.findDirectory files.storage told) (files.directory st told) := by
  cases told with
  | some directory => exact .pure directory
  | none =>
    refine Finds.look files.finds_workplace ?_
    rw [directory]
    cases files.workplace st <;> rfl

theorem finds_prepare (borrowed : Command.Borrowed) (e : Environment) (told : Option Path) :
    Finds st (Command.prepare borrowed files.storage e told)
      (files.prepared borrowed.toml st e told) :=
  Finds.bind (files.finds_findDirectory st told) fun directory =>
    Finds.bind ((files.finds_loadSettings borrowed.toml st e (some directory)).adapt _)
      fun _ => .pure _

/-! ## Making a settings file -/

/-- How the making of a settings file ends, and the state that it leaves. -/
def making (file : Path) : Except Failure Unit × σ :=
  if files.isThere st file then (.error (.usage ("config already exists: " ++ file.text)), st)
  else
    match files.ensureParent st file with
    | (.error cause, st') => (.error (.storage ("create " ++ file.text) cause), st')
    | (.ok (), st') =>
      match files.write st' file Settings.template with
      | (.error cause, st'') => (.error (.storage ("write " ++ file.text) cause), st'')
      | (.ok (), st'') => (.ok (), st'')

/-- An attempt leaves the state that what is tried leaves, also where it fails. -/
theorem run_attempt (context : String) (action : StateM σ (Except StorageError Unit)) :
    (Command.attempt context action).run.run st =
      match action.run st with
      | (.error cause, st') => (.error (.storage context cause), st')
      | (.ok (), st') => (.ok (), st') := by
  have hlift : (liftM action : ExceptT Failure (StateM σ) _).run.run st =
      (.ok (action.run st).1, (action.run st).2) := rfl
  unfold Command.attempt
  rw [ExceptT.run_bind, StateT.run_bind, hlift]
  rcases action.run st with ⟨_ | _, st'⟩ <;> rfl

theorem run_makeSettings (file : Path) :
    (Command.makeSettings files.storage file).run.run st = files.making st file := by
  have hparent : (files.storage.ensureParent file).run st = files.ensureParent st file := rfl
  unfold Command.makeSettings making
  rw [(files.finds_isThere file).run_bind]
  cases files.isThere st file with
  | true => rfl
  | false =>
    dsimp only
    rw [if_neg Bool.false_ne_true, if_neg Bool.false_ne_true, ExceptT.run_bind, StateT.run_bind,
      run_attempt, hparent]
    rcases files.ensureParent st file with ⟨_ | _, st'⟩
    · rfl
    · exact run_attempt st' _ _

end Files

namespace Command

variable {σ : Type} (borrowed : Borrowed) (files : Files σ) (e : Environment)
  (coloured : Coloured)

/-- Only the making of a settings file does not leave the files as they were. -/
theorem state_perform (settings : Settings) (directory : Path) (command : Command)
    (h : ∀ everywhere, command ≠ .config (.init everywhere)) (o : Output) (st : σ) :
    (ending (perform borrowed files.storage e coloured settings directory command) o st).2 =
      st := by
  have hlooks : ∀ {ε α : Type} {x : ExceptT ε (StateM σ) α} {r : Except ε α},
      Finds st x r → (x.run.run st).2 = st := fun hx => congrArg Prod.snd hx
  cases command with
  | leaves file paths =>
    rw [perform, (endsAs_runLeaves _ _ _ file paths).state]
    exact hlooks ((files.finds_loadLeaves _ st file _).adapt _)
  | count file =>
    rw [perform, (endsAs_runCount _ _ _ file).state]
    exact hlooks ((files.finds_summarize _ st file).adapt _)
  | tree file =>
    rw [perform, (endsAs_runTree _ _ file).state]
    exact hlooks ((files.finds_loadDocument _ st file).adapt _)
  | sortOptions file =>
    rw [perform, (endsAs_runSortOptions _ _ file).state]
    exact hlooks ((files.finds_loadChoices _ st file).adapt _)
  | fields kind base index =>
    rw [perform]
    cases hkind : EntryKind.ofName kind with
    | error fault =>
      rw [runFields, hkind]
      rfl
    | ok k => exact (prints_runFields _ hkind base index).endsAs.state o st
  | label key plural capitalized =>
    exact (prints_runLabel _ _ key plural capitalized).endsAs.state o st
  | completion shell => rfl
  | config command =>
    cases command with
    | init everywhere => exact absurd rfl (h everywhere)
    | «show» => rfl
    | path => exact (prints_runConfigPath e coloured directory).endsAs.state o st

theorem state_runInit (file : Path) (o : Output) (st : σ) :
    (ending (runInit files.storage coloured file) o st).2 = (files.making st file).2 := by
  rw [(endsAs_runInit files.storage coloured file).state, files.run_makeSettings]

/-- A command that needs directory and settings begins with finding them. -/
theorem work_eq {m : Type → Type} [Monad m] (s : Storage m) {i : Invocation} {command : Command}
    (hcommand : i.command = some command) (h : ∀ shell, command ≠ .completion shell) :
    work borrowed s e coloured i = (do
      let (directory, settings) ← silently (prepare borrowed s e i.directory)
      perform borrowed s e coloured settings directory command) := by
  rw [work, hcommand]
  cases command with
  | completion shell => exact absurd rfl (h shell)
  | _ => rfl

/-- How a command ends that needs directory and settings. -/
theorem ending_work {i : Invocation} {command : Command} (hcommand : i.command = some command)
    (h : ∀ shell, command ≠ .completion shell) (o : Output) (st : σ) :
    ending (work borrowed files.storage e coloured i) o st =
      match files.prepared borrowed.toml st e i.directory with
      | .ok (directory, settings) =>
        ending (perform borrowed files.storage e coloured settings directory command) o st
      | .error f => ((.error f, o), st) := by
  rw [work_eq borrowed e coloured _ hcommand h, ending_silently_bind, files.finds_prepare]
  rcases files.prepared borrowed.toml st e i.directory with _ | ⟨_, _⟩ <;> rfl

end Command

/-! ## Calls -/

/-- The disk after a settings file was to be made. -/
def Disk.withSettings (d : Disk) (file : Path) : Disk :=
  if d.isThere file then d
  else
    match d.ensureParent file with
    | (.error _, d') => d'
    | (.ok (), d') =>
      match d'.write file Settings.template with
      | .ok d'' => d''
      | .error _ => d'

theorem Disk.snd_making (d : Disk) (file : Path) :
    (Disk.files.making d file).2 = d.withSettings file := by
  have hthere : Disk.files.isThere d file = d.isThere file := rfl
  have hparent : Disk.files.ensureParent d file = d.ensureParent file := rfl
  have hwrite : ∀ d' : Disk, Disk.files.write d' file Settings.template =
      match d'.write file Settings.template with
      | .ok d'' => (.ok (), d'')
      | .error e => (.error e, d') := fun _ => rfl
  unfold Files.making withSettings
  rw [hthere, hparent]
  cases d.isThere file with
  | true => rfl
  | false =>
    rw [if_neg Bool.false_ne_true, if_neg Bool.false_ne_true]
    rcases d.ensureParent file with ⟨_ | _, d'⟩
    · rfl
    · dsimp only
      rw [hwrite]
      cases d'.write file Settings.template <;> rfl

/-- A call of the program: the texts it is handed, its environment, whether it may use colours, and
what is asked for. -/
structure Call where
  borrowed : Command.Borrowed
  environment : Environment
  coloured : Command.Coloured
  invocation : Invocation

/-- The settings file that a call on a disk comes to make, if it comes so far: directory and
settings must have been found. -/
def Call.target? (c : Call) (d : Disk) : Option Path :=
  match c.invocation.command, ((Command.prepare c.borrowed Disk.storage c.environment
      c.invocation.directory).run.run d).1 with
  | some (.config (.init false)), .ok (directory, _) => some (localFile directory)
  | some (.config (.init true)), .ok _ => c.environment.globalFile?
  | _, _ => none

theorem Call.target?_of_other (c : Call) (d : Disk)
    (h : ∀ everywhere, c.invocation.command ≠ some (.config (.init everywhere))) :
    c.target? d = none := by
  unfold target?
  split
  · exact absurd ‹_› (h false)
  · exact absurd ‹_› (h true)
  · rfl

theorem Call.target?_of_init (c : Call) (d : Disk) {everywhere : Bool}
    (h : c.invocation.command = some (.config (.init everywhere))) :
    c.target? d =
      match Disk.files.prepared c.borrowed.toml d c.environment c.invocation.directory with
      | .ok (directory, _) =>
        if everywhere then c.environment.globalFile? else some (localFile directory)
      | .error _ => none := by
  have hprepare : ((Command.prepare c.borrowed Disk.storage c.environment
      c.invocation.directory).run.run d).1 =
        Disk.files.prepared c.borrowed.toml d c.environment c.invocation.directory := by
    rw [Disk.storage_eq]
    exact congrArg Prod.fst (Disk.files.finds_prepare d c.borrowed _ _)
  rw [target?, h, hprepare]
  rcases Disk.files.prepared c.borrowed.toml d c.environment c.invocation.directory with
    f | ⟨directory, settings⟩
  · cases everywhere <;> rfl
  · cases everywhere <;> rfl

/-- The disk after a call. -/
def Disk.after (d : Disk) (c : Call) : Disk :=
  ((Command.run c.borrowed Disk.storage c.environment c.coloured c.invocation).run.run d).2

/-- **A call leaves the disk as it was, but for the settings file it makes.** -/
theorem Disk.after_eq (d : Disk) (c : Call) :
    d.after c = match c.target? d with
      | some file => d.withSettings file
      | none => d := by
  have hafter : d.after c = (Command.ending (Command.work c.borrowed Disk.files.storage
      c.environment c.coloured c.invocation) {} d).2 := by
    rw [after, storage_eq]
    exact Command.state_run _ _ _ _ _ d
  rw [hafter]
  by_cases hinit : ∃ everywhere, c.invocation.command = some (.config (.init everywhere))
  · obtain ⟨everywhere, hinit⟩ := hinit
    rw [Command.ending_work _ _ _ _ hinit (fun _ h => nomatch h), c.target?_of_init d hinit]
    rcases Disk.files.prepared c.borrowed.toml d c.environment c.invocation.directory with
      f | ⟨directory, settings⟩
    · rfl
    cases everywhere with
    | false => exact (Command.state_runInit _ _ _ _ d).trans (d.snd_making _)
    | true =>
      dsimp only [Command.perform, Command.runConfig]
      cases c.environment.globalFile? with
      | none => rfl
      | some file => exact (Command.state_runInit _ _ _ _ d).trans (d.snd_making _)
  · -- No other command makes a settings file, and all else leaves the disk as it was.
    have hother : ∀ everywhere, c.invocation.command ≠ some (.config (.init everywhere)) :=
      fun everywhere h => hinit ⟨everywhere, h⟩
    rw [c.target?_of_other d hother]
    cases hcommand : c.invocation.command with
    | none =>
      rw [Command.work, hcommand]
      rfl
    | some command =>
      by_cases hshell : ∃ shell, command = .completion shell
      · obtain ⟨shell, rfl⟩ := hshell
        rw [Command.work, hcommand]
        exact (Command.prints_forM Command.prints_say).endsAs.state {} d
      · rw [Command.ending_work _ _ _ _ hcommand fun shell h => hshell ⟨shell, h⟩]
        rcases Disk.files.prepared c.borrowed.toml d c.environment c.invocation.directory with
          f | ⟨_, settings⟩
        · rfl
        · refine Command.state_perform _ _ _ _ _ _ _ (fun everywhere h => ?_) _ d
          exact hother everywhere (hcommand.trans (congrArg some h))

end DepositForm
