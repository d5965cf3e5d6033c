import DepositForm.Command.Words

/-! # What a command line asks for

The commands of the program, and the one that a command line asks for.
-/
namespace DepositForm

inductive ConfigCommand where
  | show
  | init (global : Bool)
  | path
deriving DecidableEq, Repr

/-- A command with its arguments. -/
inductive Command where
  /-- Prints every leaf of a document. -/
  | leaves (file : Path) (paths : Bool)
  /-- Prints the number of leaves and the depth of a document. -/
  | count (file : Path)
  /-- Draws a document. -/
  | tree (file : Path)
  /-- Prints the label of a category. -/
  | label (key : Option String) (plural capitalized : Bool)
  /-- Lists the fields of a kind of entries. -/
  | fields (kind base : String) (index : Nat)
  /-- Prints the options of a document in order. -/
  | sortOptions (file : Path)
  | config (command : ConfigCommand)
  | completion (shell : Command.Shell)
deriving DecidableEq, Repr

/-- What a command line asks for. -/
structure Invocation where
  verbosity : Nat := 0
  /-- The directory whose settings hold, if it is told. -/
  directory : Option Path := none
  command : Option Command := none
deriving DecidableEq, Repr

namespace Command

/-! ## The grammar -/

/-- The options that every command has. -/
def sharedOptions : List Argument := [
  { name := "verbose", short := some 'v', kind := .count },
  { name := "project-dir", short := some 'C', kind := .value .path,
    setter := some "RDMDEPOSIT_PROJECT_DIR" },
  { name := "help", short := some 'h', kind := .help },
  { name := "version", short := some 'V', kind := .version }]

def switch (name : String) (letter : Char) : Argument :=
  { name, short := some letter, kind := .switch }

/-- The document that a command works on. -/
def fileArgument : Argument := { name := "file", kind := .value .path, required := true }

def configGrammar : Grammar :=
  { name := "config"
    options := sharedOptions
    needsCommand := true
    commands := [
      { name := "show", options := sharedOptions },
      { name := "init", options := switch "global" 'g' :: sharedOptions },
      { name := "path", options := sharedOptions }] }

def grammar : Grammar :=
  { name := "rdm-deposit"
    options := sharedOptions
    commands := [
      { name := "leaves", options := switch "paths" 'p' :: sharedOptions
        positionals := [fileArgument] },
      { name := "count", options := sharedOptions, positionals := [fileArgument] },
      { name := "tree", options := sharedOptions, positionals := [fileArgument] },
      { name := "label"
        options := switch "plural" 'p' :: switch "capitalized" 'c' :: sharedOptions
        positionals := [{ name := "key", kind := .value .text }] },
      { name := "fields"
        options := [{ name := "prefix", kind := .value .text },
          { name := "index", kind := .value .index }] ++ sharedOptions
        positionals := [{ name := "kind", kind := .value .text, required := true }] },
      { name := "sort-options", options := sharedOptions, positionals := [fileArgument] },
      configGrammar,
      { name := "completion", options := sharedOptions
        positionals := [{ name := "shell", kind := .value .shell, required := true }] }] }

/-! ## From arguments to commands -/

/-- The arguments of one command. -/
abbrev Arguments := List Given

namespace Arguments

def find (given : Arguments) (name : String) : Option Given := given.find? (·.name = name)

def has (given : Arguments) (name : String) : Bool := (given.find name).isSome

def text? (given : Arguments) (name : String) : Option String :=
  match (given.find name).map Given.value with
  | some (.text s) => some s
  | _ => none

def text (given : Arguments) (name : String) : String := (given.text? name).getD ""

def path (given : Arguments) (name : String) : Path := ⟨given.text name⟩

end Arguments

/-- The value of an option that every command has: one from the command line goes before one from
the environment, and among these the one of the innermost command counts. -/
def shared? (levels : List (String × Arguments)) (name : String) : Option Given :=
  let all := levels.reverse.filterMap fun level => level.2.find name
  all.find? (·.source = .commandLine) <|> all.head?

def configOf (name : String) (given : Arguments) : Option ConfigCommand :=
  match name with
  | "show" => some .show
  | "init" => some (.init (given.has "global"))
  | "path" => some .path
  | _ => none

/-- The command called `name` with its arguments, and the commands below it. -/
def ofLevel (name : String) (given : Arguments) (below : List (String × Arguments)) :
    Option Command :=
  match name with
  | "leaves" => some (.leaves (given.path "file") (given.has "paths"))
  | "count" => some (.count (given.path "file"))
  | "tree" => some (.tree (given.path "file"))
  | "label" => some (.label (given.text? "key") (given.has "plural") (given.has "capitalized"))
  | "fields" =>
    some (.fields (given.text "kind") (given.text "prefix")
      (((given.text? "index").bind index?).getD 0))
  | "sort-options" => some (.sortOptions (given.path "file"))
  | "config" => do
    let (name, given) ← below.head?
    return .config (← configOf name given)
  | "completion" => ((given.text? "shell").bind Shell.ofName?).map Command.completion
  | _ => none

end Command

namespace Invocation

/-- What the arguments of the program and of the commands below it ask for. -/
def ofLevels (levels : List (String × Command.Arguments)) : Invocation :=
  { verbosity :=
      match (Command.shared? levels "verbose").map Command.Given.value with
      | some (.times n) => n
      | _ => 0
    directory :=
      match (Command.shared? levels "project-dir").map Command.Given.value with
      | some (.text s) => some ⟨s⟩
      | _ => none
    command :=
      match levels with
      | _ :: (name, given) :: below => Command.ofLevel name given below
      | _ => none }

/-- What a command line asks for. -/
def ofWords (e : Environment) (words : List String) : Except Command.Refusal Invocation :=
  ofLevels <$> Command.readWords e Command.grammar Command.grammar.name {} words

end Invocation
end DepositForm
