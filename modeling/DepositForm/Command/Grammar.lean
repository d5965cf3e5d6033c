/-! # What a command line may say

Options, positional arguments, and commands below a command.
-/
namespace DepositForm.Command

/-- Why a command line is not carried out: it is wrong, or asks for help or the version only. -/
inductive Refusal where
  | help
  | version (text : String)
  /-- A command that needs another one stands alone: its help is shown. -/
  | helpForMissing
  | missingCommand
  | unknownCommand
  | unknownArgument
  | missingArgument
  | conflict
  /-- A value cannot be read. -/
  | unreadableValue
  /-- A value is none of those allowed, or is not there. -/
  | invalidValue
  | tooManyValues
deriving DecidableEq, Repr

/-- The exit code: only who asks for help or the version is served. -/
def Refusal.exitCode : Refusal → Nat
  | help | version _ => 0
  | _ => 2

/-- The shells that words can be completed in. -/
inductive Shell where
  | bash
  | elvish
  | fish
  | powershell
  | zsh
deriving DecidableEq, Repr

def Shell.ofName? : String → Option Shell
  | "bash" => some bash
  | "elvish" => some elvish
  | "fish" => some fish
  | "powershell" => some powershell
  | "zsh" => some zsh
  | _ => none

/-- What a value must be. -/
inductive ValueKind where
  | text
  | path
  | index
  | shell
deriving DecidableEq, Repr

/-- The index that digits stand for, after a plus sign or none; it fits a 64-bit word. -/
def index? (word : String) : Option Nat :=
  let digits :=
    match word.toList with
    | '+' :: rest => rest
    | rest => rest
  if digits ≠ [] ∧ digits.all Char.isDigit then
    let n := digits.foldl (fun n c => n * 10 + (c.toNat - '0'.toNat)) 0
    if n < UInt64.size then some n else none
  else none

/-- Why a value is refused, if it is. -/
def ValueKind.refusal? (kind : ValueKind) (value : String) : Option Refusal :=
  match kind with
  | text => none
  | path => if value.isEmpty then some .invalidValue else none
  | index => if (index? value).isSome then none else some .unreadableValue
  | shell => if (Shell.ofName? value).isSome then none else some .invalidValue

inductive ArgumentKind where
  /-- Given or not, and not twice. -/
  | switch
  /-- Given any number of times. -/
  | count
  | value (kind : ValueKind)
  | help
  | version
deriving DecidableEq, Repr

/-- An argument. As an option it stands after two dashes, or as one letter after one. -/
structure Argument where
  name : String
  short : Option Char := none
  kind : ArgumentKind
  /-- The environment variable that gives it where the command line does not. -/
  setter : Option String := none
  /-- It must be given. -/
  required : Bool := false
deriving DecidableEq, Repr

def Argument.takesValue (a : Argument) : Bool :=
  match a.kind with
  | .value _ => true
  | _ => false

/-- A command: its options, its positional arguments in order, and the commands below it. -/
structure Grammar where
  name : String
  options : List Argument := []
  positionals : List Argument := []
  commands : List Grammar := []
  /-- One of the commands below must be given. -/
  needsCommand : Bool := false

namespace Grammar

def command? (g : Grammar) (word : String) : Option Grammar :=
  g.commands.find? (·.name = word)

/-- Where there are commands, one more shows their help. -/
def offersHelp (g : Grammar) : Bool := !g.commands.isEmpty

def isCommand (g : Grammar) (word : String) : Bool :=
  (g.command? word).isSome || g.offersHelp && word = "help"

def long? (g : Grammar) (name : String) : Option Argument := g.options.find? (·.name = name)

def short? (g : Grammar) (letter : Char) : Option Argument :=
  g.options.find? (·.short = some letter)

end Grammar
end DepositForm.Command
