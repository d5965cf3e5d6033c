import DepositForm.Command.Invocation
import DepositForm.Command.Output
import DepositForm.Document.Load
import DepositForm.Settings

/-! # Running a command

First the directory is found, then the settings that hold there are loaded, and then the command
does its work. What it prints is printed where its work says so. Some of the texts are not the
program's own: they are handed to it (`Borrowed`).
-/
namespace DepositForm.Command

/-- Texts that the program shows as others make them. -/
structure Borrowed where
  /-- What is said of TOML texts that cannot be read. -/
  toml : Toml.Wording
  /-- The lines of the script that makes a shell complete the words of a command line. -/
  completion : Shell → List String

variable {m : Type → Type} [Monad m] {α : Type} (borrowed : Borrowed)

/-- Does work on documents or settings, which prints nothing. -/
def fetch (work : ExceptT DataError m α) : Printing m α := silently (work.adapt Failure.data)

/-! ## Commands without files -/

/-- The label of a category, with a warning if it stands in for another one. -/
def runLabel (coloured : Coloured) (settings : Settings) (key : Option String)
    (plural capitalized : Bool) : Printing m Unit := do
  let category : Category := ⟨key.getD settings.category⟩
  if !category.isKnown then
    warn (paint coloured .yellow "Warning" ++ ": unknown category '" ++ category.key ++
      "', using '" ++ Category.standard.key ++ "' (known: " ++
      ", ".intercalate LabelSet.singulars.keys ++ ")")
  say (category.label plural capitalized)

/-- The fields of the kind of entries with this name. -/
def runFields (coloured : Coloured) (kind base : String) (index : Nat) : Printing m Unit :=
  match EntryKind.ofName kind with
  | .error e => throw (.argument e.message)
  | .ok kind => do
    say (paint coloured .boldCyan kind.buttonLabel)
    (fieldLines kind base index).forM fun line => say ("  " ++ line)

def runConfigPath (coloured : Coloured) (e : Environment) (directory : Path) :
    Printing m Unit := do
  say (labelled coloured "global" ((e.globalFile?.map Path.text).getD "(unavailable)"))
  say (labelled coloured "local" (localFile directory).text)

/-! ## Commands on documents -/

def runLeaves (s : Storage m) (settings : Settings) (file : Path) (paths : Bool) :
    Printing m Unit := do
  let leaves ← fetch (s.loadLeaves borrowed.toml file settings.pathSeparator)
  (leafLines (paths || settings.showPaths) leaves).forM say

def runCount (s : Storage m) (coloured : Coloured) (file : Path) : Printing m Unit := do
  let summary ← fetch (s.summarize borrowed.toml file)
  say (labelled coloured "leaves" (toString summary.leaves))
  say (labelled coloured "depth" (toString summary.depth))
  say (labelled coloured "format" summary.format.name)

def runTree (s : Storage m) (file : Path) : Printing m Unit := do
  let node ← fetch (s.loadDocument borrowed.toml file)
  say (node.draw (file.fileName?.getD file.text))

def runSortOptions (s : Storage m) (file : Path) : Printing m Unit := do
  let options ← fetch (s.loadChoices borrowed.toml file)
  options.forM fun option => say (option.text ++ "\t" ++ option.value)

/-! ## Settings files -/

/-- Does something in storage; where it fails, `context` says what was tried. -/
def attempt (context : String) (action : m (Except StorageError Unit)) :
    ExceptT Failure m Unit := do
  match ← action with
  | .ok () => return ()
  | .error cause => throw (.storage context cause)

/-- Makes a settings file unless there is something in its place. -/
def makeSettings (s : Storage m) (file : Path) : ExceptT Failure m Unit := do
  if ← s.isThere file then
    throw (.usage ("config already exists: " ++ file.text))
  attempt ("create " ++ file.text) (s.ensureParent file)
  attempt ("write " ++ file.text) (s.write file Settings.template)

def runInit (s : Storage m) (coloured : Coloured) (file : Path) : Printing m Unit := do
  silently (makeSettings s file)
  say (paint coloured .green "✓" ++ " created " ++ file.text)

def runConfig (s : Storage m) (e : Environment) (coloured : Coloured) (settings : Settings)
    (directory : Path) : ConfigCommand → Printing m Unit
  | .show => say settings.toml
  | .path => runConfigPath coloured e directory
  | .init false => runInit s coloured (localFile directory)
  | .init true =>
    match e.globalFile? with
    | some file => runInit s coloured file
    | none => throw (.usage "cannot determine global config directory")

/-! ## All commands -/

/-- Does what a command does once directory and settings are known. Completion, which needs neither,
has been done before. -/
def perform (s : Storage m) (e : Environment) (coloured : Coloured) (settings : Settings)
    (directory : Path) : Command → Printing m Unit
  | .leaves file paths => runLeaves borrowed s settings file paths
  | .count file => runCount borrowed s coloured file
  | .tree file => runTree borrowed s file
  | .label key plural capitalized => runLabel coloured settings key plural capitalized
  | .fields kind base index => runFields coloured kind base index
  | .sortOptions file => runSortOptions borrowed s file
  | .config command => runConfig s e coloured settings directory command
  | .completion _ => return ()

/-- The directory whose settings hold: the one that is told, or else the one paths start from. -/
def findDirectory (s : Storage m) (told : Option Path) : ExceptT Failure m Path :=
  match told with
  | some directory => pure directory
  | none => do
    match ← s.workplace with
    | .ok directory => return directory
    | .error cause => throw (.storage "get current directory" cause)

/-- The directory whose settings hold, and these settings. -/
def prepare (s : Storage m) (e : Environment) (told : Option Path) :
    ExceptT Failure m (Path × Settings) := do
  let directory ← findDirectory s told
  let settings ← (s.loadSettings borrowed.toml e (some directory)).adapt Failure.data
  return (directory, settings)

/-- Does what a command line asks for. Completion needs neither directory nor settings. -/
def work (s : Storage m) (e : Environment) (coloured : Coloured) (i : Invocation) :
    Printing m Unit :=
  match i.command with
  | none => throw (.usage "no command given, see --help")
  | some (.completion shell) => (borrowed.completion shell).forM say
  | some command => do
    let (directory, settings) ← silently (prepare borrowed s e i.directory)
    perform borrowed s e coloured settings directory command

/-- Does what a command line asks for, and tells what has been printed. -/
def run (s : Storage m) (e : Environment) (coloured : Coloured) (i : Invocation) :
    ExceptT Stopped m Output := do
  match ← (work borrowed s e coloured i).run.run {} with
  | (.ok (), printed) => return printed
  | (.error failure, printed) => throw ⟨failure, printed⟩

end DepositForm.Command
