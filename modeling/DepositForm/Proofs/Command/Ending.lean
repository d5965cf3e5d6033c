import DepositForm.Proofs.Command.Effect
import DepositForm.Proofs.Settings.Layers

/-! # How a command ends

Several things can be wrong at once: the settings and the document, the settings and the kind of
entries, the name of a file and its text. `Ends` tells for every command line what it then comes
to, with a rule for each outcome that says all that has to hold for it. The program follows these
rules: whatever the files are, some rule applies, and no two disagree (`exactly_one_verdict`).

That no two rules disagree is not proved from the rules. What the program does is one thing, and
every rule that applies tells it (`Ends.comesTo`).
-/
namespace DepositForm

namespace Command

/-- How a command ends: it does its work, or it fails with an exit code and a message. -/
inductive Verdict where
  | done
  | failed (code : Nat) (message : String)
deriving DecidableEq, Repr

/-- The report of a command that has come to a verdict. One that fails prints its message and
nothing else. -/
def Report.Tells (r : Report) : Verdict → Prop
  | .done => r.exitCode = 0
  | .failed code message => r = ⟨code, "", "error: " ++ message ++ "\n"⟩

end Command

open Command

/-! ## The rules -/

/-- The extension of a path, in small letters, is the name of the format. -/
def Format.Marks (format : Format) (path : Path) : Prop :=
  path.extension?.map Letter.asciiLower = some format.name

instance (format : Format) (path : Path) : Decidable (format.Marks path) :=
  inferInstanceAs (Decidable (_ = _))

/-- The names of the kinds of entries, in singular and plural. -/
def EntryKind.names : List String := ["publication", "publications", "project", "projects"]

/-- The document that a command works on. -/
def Command.document? : Command → Option Path
  | leaves file _ | count file | tree file | sortOptions file => some file
  | label _ _ _ | fields _ _ _ | config _ | completion _ => none

/-- A command line asks for a command that needs a directory and its settings. -/
def Invocation.Asks (i : Invocation) (command : Command) : Prop :=
  i.command = some command ∧ ∀ shell, command ≠ .completion shell

namespace Files

variable {σ α : Type}

section Rules
variable (files : Files σ) (wording : Toml.Wording) (st : σ)

/-- How a command on a document ends. -/
inductive ReadEnds (reader : Reader α) (file : Path) : Verdict → Prop
  | unsupported : (∀ format : Format, ¬ format.Marks file) →
      ReadEnds reader file (.failed 65
        ("unsupported document format: " ++ file.text ++ " (expected .json or .toml)"))
  | unreadable {format : Format} {cause} : format.Marks file → files.read st file = .error cause →
      ReadEnds reader file (.failed 66 ("operation failed: read document: " ++ file.text))
  | undecodable {format : Format} {text message} : format.Marks file →
      files.read st file = .ok text → format.read wording reader text = .error message →
      ReadEnds reader file (.failed 65 ("cannot parse " ++ file.text ++ ": " ++ message))
  | decoded {format : Format} {text value} : format.Marks file →
      files.read st file = .ok text → format.read wording reader text = .ok value →
      ReadEnds reader file .done

/-- How the making of a settings file ends. -/
inductive MakeEnds (file : Path) : Verdict → Prop
  | there : files.isThere st file = true →
      MakeEnds file (.failed 64 ("config already exists: " ++ file.text))
  | noParent {cause st'} : files.isThere st file = false →
      files.ensureParent st file = (.error cause, st') →
      MakeEnds file (.failed 74 ("I/O error: create " ++ file.text))
  | unwritable {cause st' st''} : files.isThere st file = false →
      files.ensureParent st file = (.ok (), st') →
      files.write st' file Settings.template = (.error cause, st'') →
      MakeEnds file (.failed 74 ("I/O error: write " ++ file.text))
  | made {st' st''} : files.isThere st file = false →
      files.ensureParent st file = (.ok (), st') →
      files.write st' file Settings.template = (.ok (), st'') → MakeEnds file .done

/-- How a command ends once its settings have been loaded. -/
inductive WorkEnds (e : Environment) (directory : Path) : Command → Verdict → Prop
  | leaves {file paths v} : files.ReadEnds wording st Announced.toNode file v →
      WorkEnds e directory (.leaves file paths) v
  | count {file v} : files.ReadEnds wording st Announced.toNode file v →
      WorkEnds e directory (.count file) v
  | tree {file v} : files.ReadEnds wording st Announced.toNode file v →
      WorkEnds e directory (.tree file) v
  | sortOptions {file v} : files.ReadEnds wording st Choice.readAll file v →
      WorkEnds e directory (.sortOptions file) v
  | label {key plural capitalized} : WorkEnds e directory (.label key plural capitalized) .done
  | fields {kind base index} : Letter.asciiLower kind ∈ EntryKind.names →
      WorkEnds e directory (.fields kind base index) .done
  | unknownKind {kind base index} : Letter.asciiLower kind ∉ EntryKind.names →
      WorkEnds e directory (.fields kind base index) (.failed 64
        ("invalid arguments: unknown entry kind: " ++ kind ++ " (expected publication or project)"))
  | «show» : WorkEnds e directory (.config .show) .done
  | path : WorkEnds e directory (.config .path) .done
  | initHere {v} : files.MakeEnds st (localFile directory) v →
      WorkEnds e directory (.config (.init false)) v
  | initEverywhere {file v} : e.globalFile? = some file → files.MakeEnds st file v →
      WorkEnds e directory (.config (.init true)) v
  | initNowhere : e.globalFile? = none → WorkEnds e directory (.config (.init true))
      (.failed 64 "cannot determine global config directory")

/-- The directory whose settings hold: the one that is told, or else the one paths start from. -/
inductive Stands (told : Option Path) : Path → Prop
  | told {directory} : told = some directory → Stands told directory
  | here {directory} : told = none → files.workplace st = .ok directory → Stands told directory

/-- How a command line ends. -/
inductive Ends (e : Environment) (i : Invocation) : Verdict → Prop
  | noCommand : i.command = none → Ends e i (.failed 64 "no command given, see --help")
  | completion {shell} : i.command = some (.completion shell) → Ends e i .done
  | nowhere {command cause} : i.Asks command → i.directory = none →
      files.workplace st = .error cause → Ends e i (.failed 74 "I/O error: get current directory")
  | badSettings {command directory message} : i.Asks command →
      files.Stands st i.directory directory → files.Stops wording st e directory message →
      Ends e i (.failed 78 ("config error: " ++ message))
  | work {command directory v} : i.Asks command → files.Stands st i.directory directory →
      (∀ message, ¬ files.Stops wording st e directory message) →
      files.WorkEnds wording st e directory command v → Ends e i v

end Rules

end Files

/-! ## What the program comes to -/

namespace Command

variable {σ α β : Type}

/-- The verdict on what silent work gives. -/
def Verdict.of : Except Failure α → Verdict
  | .ok _ => .done
  | .error f => .failed f.exitCode f.message

/-- Printing work comes to a verdict: it ends without a failure, or with one before which it has
printed nothing. -/
inductive ComesTo (x : Printing (StateM σ) Unit) (st : σ) : Verdict → Prop
  | done : (∀ o, ∃ o' st', ending x o st = ((.ok (), o'), st')) → ComesTo x st .done
  | failed (f : Failure) : (∀ o, ∃ st', ending x o st = ((.error f, o), st')) →
      ComesTo x st (.failed f.exitCode f.message)

variable {x : Printing (StateM σ) Unit} {st : σ} {v : Verdict}

theorem ComesTo.unique {w : Verdict} (hv : ComesTo x st v) (hw : ComesTo x st w) : v = w := by
  -- Whatever has been printed before, the work ends in one way; nothing printed is as good as any.
  cases hv with
  | done hv =>
    obtain ⟨_, _, hv⟩ := hv {}
    cases hw with
    | done _ => rfl
    | failed f hw =>
      obtain ⟨_, hw⟩ := hw {}
      cases hv.symm.trans hw
  | failed f hv =>
    obtain ⟨_, hv⟩ := hv {}
    cases hw with
    | done hw =>
      obtain ⟨_, _, hw⟩ := hw {}
      cases hv.symm.trans hw
    | failed g hw =>
      obtain ⟨_, hw⟩ := hw {}
      cases hv.symm.trans hw
      rfl

theorem ComesTo.congr {y : Printing (StateM σ) Unit} (h : ComesTo y st v)
    (hxy : ∀ o, ending x o st = ending y o st) : ComesTo x st v := by
  cases h with
  | done h =>
    refine .done fun o => ?_
    obtain ⟨o', st', h⟩ := h o
    exact ⟨o', st', (hxy o).trans h⟩
  | failed f h =>
    refine .failed f fun o => ?_
    obtain ⟨st', h⟩ := h o
    exact ⟨st', (hxy o).trans h⟩

/-- Work that prints at its end comes to the verdict on its silent beginning. -/
theorem EndsAs.comesTo {y : ExceptT Failure (StateM σ) α} {r : Except Failure α} {st' : σ}
    (h : EndsAs x y) (hy : y.run.run st = (r, st')) : ComesTo x st (.of r) := by
  cases r with
  | ok a =>
    refine .done fun o => ?_
    obtain ⟨o', h⟩ := h o st
    rw [hy] at h
    exact ⟨o', st', h⟩
  | error f =>
    refine .failed f fun o => ?_
    obtain ⟨o', h⟩ := h o st
    rw [hy] at h
    exact ⟨st', h⟩

theorem Prints.comesTo (h : Prints x) : ComesTo x st .done :=
  .done fun o => (h o st).imp fun _ h => ⟨st, h⟩

/-- The report of a run tells the verdict that its work comes to. -/
theorem ComesTo.told {borrowed : Borrowed} {s : Storage (StateM σ)} {e : Environment}
    {i : Invocation} (h : ComesTo (work borrowed s e false i) st v) :
    (report false ((run borrowed s e false i).run.run st).1).Tells v := by
  rw [run_run]
  cases h with
  | done h =>
    obtain ⟨o', st', h⟩ := h {}
    rw [h]
    rfl
  | failed f h =>
    obtain ⟨st', h⟩ := h {}
    rw [h]
    have hline : unlines [paint false .boldRed "error" ++ ": " ++ f.message] =
        "error: " ++ f.message ++ "\n" := String.empty_append
    exact congrArg (Report.mk f.exitCode "") hline

end Command

theorem Format.ofPath_of_marks {format : Format} {path : Path} (h : format.Marks path) :
    Format.ofPath path = .ok format := by
  unfold Marks at h
  unfold ofPath
  rw [h]
  cases format <;> rfl

theorem Format.ofPath_of_unsupported {path : Path} (h : ∀ format : Format, ¬ format.Marks path) :
    Format.ofPath path = .error (.unsupported path) := by
  unfold ofPath
  split
  · exact absurd ‹_› (h .json)
  · exact absurd ‹_› (h .toml)
  · rfl

theorem EntryKind.ofName_of_mem {name : String} (h : Letter.asciiLower name ∈ names) :
    ∃ kind, ofName name = .ok kind := by
  simp only [names, List.mem_cons, List.not_mem_nil, or_false] at h
  unfold ofName
  dsimp only
  by_cases hpublication :
      Letter.asciiLower name = "publication" ∨ Letter.asciiLower name = "publications"
  · exact ⟨.publication, if_pos hpublication⟩
  · have hproject := (or_assoc.mpr h).resolve_left hpublication
    exact ⟨.project, by rw [if_neg hpublication, if_pos hproject]⟩

theorem EntryKind.ofName_of_not_mem {name : String} (h : Letter.asciiLower name ∉ names) :
    ofName name = .error (.unknownKind name) := by
  simp only [names, List.mem_cons, List.not_mem_nil, or_false, not_or] at h
  obtain ⟨h₁, h₂, h₃, h₄⟩ := h
  unfold ofName
  dsimp only
  rw [if_neg (not_or.mpr ⟨h₁, h₂⟩), if_neg (not_or.mpr ⟨h₃, h₄⟩)]

namespace Files

variable {σ α : Type} {files : Files σ} {wording : Toml.Wording} {borrowed : Borrowed} {st : σ}
  {v : Verdict} {file directory : Path} {e : Environment} {i : Invocation}

/-! ### Every rule that applies tells what the program does -/

theorem ReadEnds.eq_of {reader : Reader α} (h : files.ReadEnds wording st reader file v) :
    v = .of ((files.document wording st reader file).mapError Failure.data) := by
  cases h with
  | unsupported hfile =>
    rw [document, Format.ofPath_of_unsupported hfile]
    rfl
  | unreadable hfile hread =>
    rw [document, Format.ofPath_of_marks hfile, hread]
    rfl
  | undecodable hfile hread hdecode =>
    rw [document_of_read files wording st (Format.ofPath_of_marks hfile) hread, hdecode]
    rfl
  | decoded hfile hread hdecode =>
    rw [document_of_read files wording st (Format.ofPath_of_marks hfile) hread, hdecode]
    rfl

/-- What is told of a document does not change the verdict on reading it. -/
theorem ReadEnds.comesTo {β : Type} {reader : Reader α}
    (h : files.ReadEnds wording st reader file v) {x : Printing (StateM σ) Unit}
    {y : ExceptT DataError (StateM σ) β} {g : Format × α → β}
    (hx : EndsAs x (y.adapt Failure.data))
    (hy : Finds st y (do return g (← files.document wording st reader file))) : ComesTo x st v := by
  have hread := hx.comesTo (hy.adapt Failure.data)
  rw [h.eq_of]
  -- `g` is applied to what has been read, if anything has.
  cases hdocument : files.document wording st reader file <;> rwa [hdocument] at hread

theorem MakeEnds.eq_of (h : files.MakeEnds st file v) : v = .of (files.making st file).1 := by
  have hmessage : ∀ action, "I/O error: " ++ action ++ file.text =
      "I/O error: " ++ (action ++ file.text) := fun _ => String.append_assoc
  unfold making
  cases h with
  | there hthere =>
    rw [hthere]
    rfl
  | noParent hthere hparent =>
    rw [if_neg (ne_true_of_eq_false hthere), hparent]
    exact congrArg (Verdict.failed 74) (hmessage "create ")
  | unwritable hthere hparent hwrite =>
    rw [if_neg (ne_true_of_eq_false hthere), hparent]
    dsimp only
    rw [hwrite]
    exact congrArg (Verdict.failed 74) (hmessage "write ")
  | made hthere hparent hwrite =>
    rw [if_neg (ne_true_of_eq_false hthere), hparent]
    dsimp only
    rw [hwrite]
    rfl

theorem MakeEnds.comesTo (h : files.MakeEnds st file v) (coloured : Coloured) :
    ComesTo (runInit files.storage coloured file) st v := by
  rw [h.eq_of]
  exact (endsAs_runInit files.storage coloured file).comesTo (files.run_makeSettings st file)

theorem WorkEnds.comesTo {command : Command}
    (h : files.WorkEnds borrowed.toml st e directory command v) (coloured : Coloured)
    (settings : Settings) :
    ComesTo (perform borrowed files.storage e coloured settings directory command) st v := by
  cases h with
  | @leaves file paths _ h =>
    exact h.comesTo (endsAs_runLeaves borrowed files.storage settings file paths)
      (files.finds_loadLeaves _ st file settings.pathSeparator)
  | @count file _ h =>
    exact h.comesTo (endsAs_runCount borrowed files.storage coloured file)
      (files.finds_summarize _ st file)
  | @tree file _ h =>
    exact h.comesTo (endsAs_runTree borrowed files.storage file)
      (files.finds_loadDocument _ st file)
  | @sortOptions file _ h =>
    exact h.comesTo (endsAs_runSortOptions borrowed files.storage file)
      (files.finds_loadChoices _ st file)
  | label => exact (prints_runLabel coloured settings _ _ _).comesTo
  | fields hkind =>
    obtain ⟨kind, hkind⟩ := EntryKind.ofName_of_mem hkind
    exact (prints_runFields coloured hkind _ _).comesTo
  | @unknownKind kind base index hkind =>
    have hends : ∀ o, ending (perform borrowed files.storage e coloured settings directory
          (.fields kind base index)) o st =
        ((.error (.argument (FormError.unknownKind kind).message), o), st) := by
      intro o
      rw [perform, runFields, EntryKind.ofName_of_not_mem hkind]
      rfl
    have hassoc : ∀ a b c : String, "invalid arguments: " ++ a ++ b ++ c =
        "invalid arguments: " ++ (a ++ b ++ c) := by
      intro a b c
      simp only [String.append_assoc]
    have hmessage : "invalid arguments: unknown entry kind: " ++ kind ++
          " (expected publication or project)" =
        (Failure.argument (FormError.unknownKind kind).message).message :=
      hassoc "unknown entry kind: " kind " (expected publication or project)"
    have hfailed := ComesTo.failed (.argument (FormError.unknownKind kind).message) fun o =>
      ⟨st, hends o⟩
    rwa [← hmessage] at hfailed
  | «show» => exact (prints_say settings.toml).comesTo
  | path => exact (prints_runConfigPath e coloured directory).comesTo
  | initHere h => exact h.comesTo coloured
  | initEverywhere hfile h =>
    rw [perform, runConfig, hfile]
    exact h.comesTo coloured
  | initNowhere hfile =>
    rw [perform, runConfig, hfile]
    exact .failed (.usage "cannot determine global config directory") fun o => ⟨st, rfl⟩

theorem prepared_of_nowhere {told : Option Path} {cause : StorageError} (htold : told = none)
    (hworkplace : files.workplace st = .error cause) :
    files.prepared wording st e told = .error (.storage "get current directory" cause) := by
  rw [prepared, htold, Files.directory, hworkplace]
  rfl

theorem prepared_of_stands {told : Option Path} (h : files.Stands st told directory) :
    files.prepared wording st e told = (do
      let settings ← (files.settings wording st e (some directory)).mapError Failure.data
      return (directory, settings)) := by
  cases h with
  | told htold =>
    rw [prepared, htold]
    rfl
  | here htold hworkplace =>
    rw [prepared, htold, Files.directory, hworkplace]
    rfl

theorem prepared_of_stops {told : Option Path} {message : String}
    (hdirectory : files.Stands st told directory) (h : files.Stops wording st e directory message) :
    files.prepared wording st e told = .error (.data (.settings message)) := by
  rw [prepared_of_stands hdirectory, settings_of_stops h]
  rfl

theorem prepared_of_not_stops {told : Option Path} (hdirectory : files.Stands st told directory)
    (h : ∀ message, ¬ files.Stops wording st e directory message) :
    ∃ settings, files.prepared wording st e told = .ok (directory, settings) := by
  obtain ⟨everywhere, here, _, _, hsettings⟩ := settings_of_not_stops h
  refine ⟨((({} : Settings).under everywhere).under here).under e.layer, ?_⟩
  rw [prepared_of_stands hdirectory, hsettings]
  rfl

theorem Ends.comesTo (h : files.Ends borrowed.toml st e i v) (coloured : Coloured) :
    ComesTo (Command.work borrowed files.storage e coloured i) st v := by
  cases h with
  | noCommand hcommand =>
    rw [Command.work, hcommand]
    exact .failed (.usage "no command given, see --help") fun o => ⟨st, rfl⟩
  | completion hcommand =>
    rw [Command.work, hcommand]
    exact (prints_forM prints_say).comesTo
  | @nowhere _ cause hasks htold hworkplace =>
    refine .failed (.storage "get current directory" cause) fun o => ⟨st, ?_⟩
    rw [ending_work borrowed files e coloured hasks.1 hasks.2, prepared_of_nowhere htold hworkplace]
  | @badSettings _ _ message hasks hdirectory hstops =>
    refine .failed (.data (.settings message)) fun o => ⟨st, ?_⟩
    rw [ending_work borrowed files e coloured hasks.1 hasks.2, prepared_of_stops hdirectory hstops]
  | work hasks hdirectory hsound hwork =>
    obtain ⟨settings, hprepared⟩ := prepared_of_not_stops hdirectory hsound
    refine (hwork.comesTo coloured settings).congr fun o => ?_
    rw [ending_work borrowed files e coloured hasks.1 hasks.2, hprepared]

/-! ### Some rule applies -/

theorem exists_readEnds (files : Files σ) (wording : Toml.Wording) (st : σ) (reader : Reader α)
    (file : Path) :
    ∃ v, files.ReadEnds wording st reader file v := by
  by_cases hfile : ∃ format : Format, format.Marks file
  · obtain ⟨format, hfile⟩ := hfile
    cases hread : files.read st file with
    | error cause => exact ⟨_, .unreadable hfile hread⟩
    | ok text =>
      cases hdecode : format.read wording reader text with
      | error message => exact ⟨_, .undecodable hfile hread hdecode⟩
      | ok value => exact ⟨_, .decoded hfile hread hdecode⟩
  · exact ⟨_, .unsupported (not_exists.mp hfile)⟩

theorem exists_makeEnds (files : Files σ) (st : σ) (file : Path) :
    ∃ v, files.MakeEnds st file v := by
  cases hthere : files.isThere st file with
  | true => exact ⟨_, .there hthere⟩
  | false =>
    rcases hparent : files.ensureParent st file with ⟨cause | _, st'⟩
    · exact ⟨_, .noParent hthere hparent⟩
    rcases hwrite : files.write st' file Settings.template with ⟨cause | _, st''⟩
    · exact ⟨_, .unwritable hthere hparent hwrite⟩
    · exact ⟨_, .made hthere hparent hwrite⟩

theorem exists_workEnds (files : Files σ) (wording : Toml.Wording) (st : σ) (e : Environment)
    (directory : Path) {command : Command} (h : ∀ shell, command ≠ .completion shell) :
    ∃ v, files.WorkEnds wording st e directory command v := by
  cases command with
  | leaves file paths => exact (files.exists_readEnds wording st _ file).imp fun _ => .leaves
  | count file => exact (files.exists_readEnds wording st _ file).imp fun _ => .count
  | tree file => exact (files.exists_readEnds wording st _ file).imp fun _ => .tree
  | sortOptions file => exact (files.exists_readEnds wording st _ file).imp fun _ => .sortOptions
  | label key plural capitalized => exact ⟨_, .label⟩
  | fields kind base index =>
    by_cases hkind : Letter.asciiLower kind ∈ EntryKind.names
    · exact ⟨_, .fields hkind⟩
    · exact ⟨_, .unknownKind hkind⟩
  | completion shell => exact absurd rfl (h shell)
  | config command =>
    cases command with
    | «show» => exact ⟨_, .show⟩
    | path => exact ⟨_, .path⟩
    | init everywhere =>
      cases everywhere with
      | false => exact (files.exists_makeEnds st _).imp fun _ => .initHere
      | true =>
        cases hfile : e.globalFile? with
        | none => exact ⟨_, .initNowhere hfile⟩
        | some file => exact (files.exists_makeEnds st file).imp fun _ => .initEverywhere hfile

theorem exists_ends (files : Files σ) (wording : Toml.Wording) (st : σ) (e : Environment)
    (i : Invocation) : ∃ v, files.Ends wording st e i v := by
  cases hcommand : i.command with
  | none => exact ⟨_, .noCommand hcommand⟩
  | some command =>
    by_cases hshell : ∃ shell, command = .completion shell
    · obtain ⟨shell, rfl⟩ := hshell
      exact ⟨_, .completion hcommand⟩
    have hasks : i.Asks command := ⟨hcommand, not_exists.mp hshell⟩
    -- Once the directory is known, only settings files and the command itself are left to decide.
    have hsettings : ∀ directory, files.Stands st i.directory directory →
        ∃ v, files.Ends wording st e i v := by
      intro directory hdirectory
      by_cases hstops : ∃ message, files.Stops wording st e directory message
      · obtain ⟨message, hstops⟩ := hstops
        exact ⟨_, .badSettings hasks hdirectory hstops⟩
      · obtain ⟨v, hwork⟩ := files.exists_workEnds wording st e directory hasks.2
        exact ⟨v, .work hasks hdirectory (not_exists.mp hstops) hwork⟩
    cases htold : i.directory with
    | some directory => exact hsettings directory (.told htold)
    | none =>
      cases hworkplace : files.workplace st with
      | error cause => exact ⟨_, .nowhere hasks htold hworkplace⟩
      | ok directory => exact hsettings directory (.here htold hworkplace)

end Files

/-! ### Storage that is not asked -/

section Unsupported
variable {m : Type → Type} [Monad m] [LawfulMonad m] {α : Type} (borrowed : Borrowed)

/-- A document whose path tells no format is refused without asking storage for anything. -/
theorem Storage.readDocument_unsupported (s : Storage m) (wording : Toml.Wording)
    (reader : Reader α) {file : Path} (h : ∀ format : Format, ¬ format.Marks file) :
    s.readDocument wording reader file = throw (.unsupported file) := by
  rw [readDocument, Format.ofPath_of_unsupported h]
  exact pure_bind _ _

theorem Command.fetch_throw (e : DataError) :
    (fetch (throw e) : Printing m α) = throw (.data e) := by
  have hadapt : (throw e : ExceptT DataError m α).adapt Failure.data = throw (.data e) :=
    map_pure _ _
  rw [fetch, hadapt]
  exact funext fun o => pure_bind _ _

theorem Command.perform_unsupported (s : Storage m) (e : Environment) (coloured : Coloured)
    (settings : Settings) (directory : Path) {command : Command} {file : Path}
    (hfile : command.document? = some file) (h : ∀ format : Format, ¬ format.Marks file) :
    perform borrowed s e coloured settings directory command =
      throw (.data (.unsupported file)) := by
  cases command with
  | leaves _ _ =>
    cases hfile
    rw [perform, runLeaves, Storage.loadLeaves, Storage.loadDocument,
      s.readDocument_unsupported _ _ h, ExceptT.bind_throw, ExceptT.bind_throw, fetch_throw,
      ExceptT.bind_throw]
  | count _ =>
    cases hfile
    rw [perform, runCount, Storage.summarize, s.readDocument_unsupported _ _ h, ExceptT.bind_throw,
      fetch_throw, ExceptT.bind_throw]
  | tree _ =>
    cases hfile
    rw [perform, runTree, Storage.loadDocument, s.readDocument_unsupported _ _ h,
      ExceptT.bind_throw, fetch_throw, ExceptT.bind_throw]
  | sortOptions _ =>
    cases hfile
    rw [perform, runSortOptions, Storage.loadChoices, s.readDocument_unsupported _ _ h,
      ExceptT.bind_throw, fetch_throw, ExceptT.bind_throw]
  | label _ _ _ => cases hfile
  | fields _ _ _ => cases hfile
  | config _ => cases hfile
  | completion _ => cases hfile

/-- A command on such a document does nothing once its settings have been loaded. -/
theorem Command.work_unsupported (s : Storage m) (e : Environment) (coloured : Coloured)
    {i : Invocation} {command : Command} {file : Path} (hcommand : i.command = some command)
    (hfile : command.document? = some file) (h : ∀ format : Format, ¬ format.Marks file) :
    work borrowed s e coloured i = (do
      let _ ← silently (prepare borrowed s e i.directory)
      throw (.data (.unsupported file))) := by
  have hneeds : ∀ shell, command ≠ .completion shell := by
    rintro shell rfl
    cases hfile
  rw [work_eq borrowed e coloured s hcommand hneeds]
  exact bind_congr fun _ => perform_unsupported borrowed s e coloured _ _ hfile h

end Unsupported

/-- **Every command line comes to exactly one verdict, and the report tells it.** Where it has
failed, it has printed nothing but its message, in which TOML that cannot be read is complained of
in the words that are borrowed for this. A document whose path tells no format is not even looked
for: with any storage, the work on it is to load the settings and then to fail. -/
theorem Files.exactly_one_verdict {σ : Type} (borrowed : Borrowed) (files : Files σ) (st : σ)
    (e : Environment) (i : Invocation) :
    (∃ v, (∀ w, files.Ends borrowed.toml st e i w ↔ w = v) ∧
      (report false ((run borrowed files.storage e false i).run.run st).1).Tells v) ∧
    ∀ (m : Type → Type) [Monad m] [LawfulMonad m] (s : Storage m) (command : Command) (file : Path),
      i.command = some command → command.document? = some file →
      (∀ format : Format, ¬ format.Marks file) →
        work borrowed s e false i = (do
          let _ ← silently (prepare borrowed s e i.directory)
          throw (.data (.unsupported file))) := by
  obtain ⟨v, hends⟩ := files.exists_ends borrowed.toml st e i
  refine ⟨⟨v, fun w => ⟨fun h => ?_, fun h => h ▸ hends⟩, (hends.comesTo false).told⟩, ?_⟩
  · -- Both rules tell what the program does, so they tell the same.
    exact (h.comesTo false).unique (hends.comesTo false)
  · intro m _ _ s command file hcommand hfile hunsupported
    exact work_unsupported borrowed s e false hcommand hfile hunsupported

/-- A settings file with a number for the category. -/
def spoiledText : String := "category = 1\n"

/-- What is said of it: the place, the line it is in, and the reason. -/
def spoiledWording : String :=
"TOML parse error at line 1, column 12
  |
1 | category = 1
  |            ^
invalid type: integer `1`, expected a string
"

/-- A disk with a directory that has this settings file. -/
def Disk.spoiled : Disk where
  contents := [(["work"], .directory), (["work", ".rdm-deposit.toml"], .file spoiledText.toUTF8)]
  spot := .live ["work"]

/-- Neither the settings nor the document can be used. It is the settings that are complained of,
and the document is not looked for. -/
theorem Disk.ends_spoiled :
    let borrowed : Borrowed := { toml := fun _ _ => spoiledWording, completion := fun _ => [] }
    let e : Environment := { bindings := [("HOME", "/home")] }
    let i : Invocation := { command := some (.leaves ⟨"notes.txt"⟩ false) }
    report false ((run borrowed Disk.storage e false i).run.run Disk.spoiled).1 =
        ⟨78, "", "error: config error: parse /work/.rdm-deposit.toml: " ++ spoiledWording ++ "\n"⟩ ∧
      work borrowed Disk.storage e false i = (do
        let _ ← silently (prepare borrowed Disk.storage e none)
        throw (.data (.unsupported ⟨"notes.txt"⟩))) := by
  intro borrowed e i
  obtain ⟨⟨v, hv, htold⟩, hunread⟩ := Disk.files.exactly_one_verdict borrowed Disk.spoiled e i
  have hasks : i.Asks (.leaves ⟨"notes.txt"⟩ false) := ⟨rfl, fun _ h => nomatch h⟩
  have hthere : Disk.spoiled.isThere (localFile ⟨"/work"⟩) = true := by decide
  have hunsupported : ∀ format : Format, ¬ format.Marks ⟨"notes.txt"⟩ := by
    intro format
    cases format <;> decide
  have hfault : Disk.files.Fault borrowed.toml Disk.spoiled (localFile ⟨"/work"⟩)
      ("parse /work/.rdm-deposit.toml: " ++ spoiledWording) := by
    have hread : Disk.spoiled.read (localFile ⟨"/work"⟩) = .ok spoiledText := read_of_text rfl rfl
    have hentries : Toml.entries? spoiledText = some [("category", .token (.signed 1))] := rfl
    have hdecode : Toml.read Layer.read spoiledText =
        .error (some (.mismatch (.token (.signed 1)) .text 0)) := by
      rw [Toml.read, Toml.announce?, hentries]
      rfl
    exact .undecodable hthere hread hdecode
  have hends : Disk.files.Ends borrowed.toml Disk.spoiled e i
      (.failed 78 ("config error: " ++ ("parse /work/.rdm-deposit.toml: " ++ spoiledWording))) := by
    refine .badSettings hasks (.here rfl rfl) (.here ?_ hfault)
    exact Files.not_faulty_of_not_there (by decide)
  have hverdict := (hv _).mp hends
  rw [← hverdict] at htold
  refine ⟨htold.trans ?_, hunread (StateM Disk) Disk.storage _ _ rfl rfl hunsupported⟩
  rfl

end DepositForm
