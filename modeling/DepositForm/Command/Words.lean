import DepositForm.Command.Grammar
import DepositForm.Settings

/-! # Reading the words of a command line

Words are taken one by one, by a grammar. An option that waits for its value takes the next
word, unless that looks like an option; what an option or a positional argument has been given
is only judged when the next one is met. The words after a command are the command's, and are
judged before what stands in front of it.
-/
namespace DepositForm.Command

/-- Where an argument's value comes from. -/
inductive Source where
  | environment
  | commandLine
deriving DecidableEq, Repr

inductive Datum where
  | on
  | times (n : Nat)
  | text (s : String)
deriving DecidableEq, Repr

/-- An argument that has a value. -/
structure Given where
  name : String
  value : Datum
  source : Source
deriving DecidableEq, Repr

/-- What has been read of the words of one command. -/
structure Level where
  given : List Given := []
  /-- The argument met last, with the word for it once there is one. -/
  pending : Option (Argument × Option String) := none
  /-- The number of positional arguments met. -/
  positions : Nat := 0
  /-- Two dashes were met: only positional arguments follow. -/
  trailing : Bool := false

/-- A kind of word. -/
inductive Word where
  | escape
  | long (name : String) (value : Option String)
  | shorts (letters : List Char)
  | plain

/-- What kind of word this is. -/
def Word.ofText (word : String) : Word :=
  match word.toList with
  | ['-', '-'] => .escape
  | '-' :: '-' :: rest =>
    let name := String.ofList (rest.takeWhile (· ≠ '='))
    match rest.dropWhile (· ≠ '=') with
    | _ :: value => .long name (some (String.ofList value))
    | [] => .long name none
  | '-' :: c :: rest => .shorts (c :: rest)
  | _ => .plain

namespace Level

def find? (l : Level) (name : String) : Option Given := l.given.find? (·.name = name)

def isWaiting (l : Level) : Bool :=
  match l.pending with
  | some (_, none) => true
  | _ => false

def put (l : Level) (name : String) (value : Datum) (source : Source) : Level :=
  { l with given := l.given.filter (·.name ≠ name) ++ [⟨name, value, source⟩] }

/-- Judges an argument and what it was given. `title` names the command. -/
def accept (l : Level) (title : String) (a : Argument) (value : Option String) (source : Source) :
    Except Refusal Level :=
  match a.kind with
  | .help => .error .help
  | .version => .error (.version (title ++ " 0.3.0\n"))
  | .count =>
    let n :=
      match (l.find? a.name).map Given.value with
      | some (.times n) => n
      | _ => 0
    .ok (l.put a.name (.times (n + 1)) source)
  | .switch =>
    if (l.find? a.name).isSome then .error .conflict else .ok (l.put a.name .on source)
  | .value kind =>
    match value with
    | none => .error .invalidValue
    | some v =>
      if (l.find? a.name).isSome then .error .conflict
      else
        match kind.refusal? v with
        | some refusal => .error refusal
        | none => .ok (l.put a.name (.text v) source)

/-- Judges the argument met last. -/
def settle (l : Level) (title : String) : Except Refusal Level :=
  match l.pending with
  | none => .ok l
  | some (a, value) => { l with pending := none }.accept title a value .commandLine

/-- Takes an option with what is attached to it. -/
def takeOption (l : Level) (title : String) (a : Argument) (value : Option String) :
    Except Refusal Level := do
  let l ← l.settle title
  if a.takesValue ∧ value.isNone then return { l with pending := some (a, none) }
  else l.accept title a value .commandLine

/-- Takes letters after one dash. What follows an option with a value is the value, without an
equals sign in front. -/
def takeShorts (g : Grammar) (title : String) (l : Level) : List Char → Except Refusal Level
  | [] => .ok l
  | letter :: rest =>
    match g.short? letter with
    | none => .error .unknownArgument
    | some a =>
      if a.takesValue then
        l.takeOption title a
          (match rest with
            | [] => none
            | '=' :: value => some (String.ofList value)
            | value => some (String.ofList value))
      else do
        let l ← l.takeOption title a none
        takeShorts g title l rest

/-- Takes a positional argument. One too many is taken for a command where there are any. -/
def takePositional (g : Grammar) (title : String) (l : Level) (word : String) :
    Except Refusal Level :=
  match g.positionals[l.positions]? with
  | some a => do
    let l ← l.settle title
    return { l with pending := some (a, some word), positions := l.positions + 1 }
  | none =>
    if g.commands.isEmpty ∨ l.trailing ∧ g.isCommand word then .error .unknownArgument
    else .error .unknownCommand

/-- Takes a word that is no command. -/
def take (g : Grammar) (title : String) (l : Level) (word : String) : Except Refusal Level :=
  if l.trailing then l.takePositional g title word
  else
    match Word.ofText word with
    | .escape => .ok { l with trailing := true }
    | .long name value =>
      match g.long? name with
      | none => .error .unknownArgument
      | some a =>
        if value.isSome ∧ !a.takesValue then .error .tooManyValues
        else l.takeOption title a value
    | .shorts letters => l.takeShorts g title letters
    | .plain =>
      match l.pending with
      | some (a, none) => .ok { l with pending := some (a, some word) }
      | _ => l.takePositional g title word

/-- Takes the values of environment variables for options that were not given. -/
def takeVariables (e : Environment) (title : String) (l : Level) :
    List Argument → Except Refusal Level
  | [] => .ok l
  | a :: rest =>
    match a.setter.bind e.get? with
    | some value =>
      if (l.find? a.name).isSome then takeVariables e title l rest
      else do
        let l ← l.accept title a (some value) .environment
        takeVariables e title l rest
    | none => takeVariables e title l rest

/-- The arguments of a command when its words are over; `below` says whether a command follows. -/
def finish (g : Grammar) (e : Environment) (title : String) (below : Bool) (l : Level) :
    Except Refusal (List Given) := do
  let l ← l.settle title
  let l ← l.takeVariables e title g.options
  if g.needsCommand ∧ !below then
    throw (if l.given.isEmpty then .helpForMissing else .missingCommand)
  if g.positionals.any fun a => a.required && (l.find? a.name).isNone then
    throw .missingArgument
  return l.given

end Level

/-- The answer to a call for help with the commands that the words lead to. -/
def helpFor (g : Grammar) : List String → Refusal
  | [] => .help
  | word :: rest =>
    match g.command? word with
    | some below => helpFor below rest
    | none => if g.offersHelp ∧ word = "help" ∧ rest = [] then .help else .unknownCommand

/-- Reads the words of a command: the command and those below it, each with its arguments. -/
def readWords (e : Environment) (g : Grammar) (title : String) (l : Level) :
    List String → Except Refusal (List (String × List Given))
  | [] => do
    let given ← l.finish g e title false
    return [(g.name, given)]
  | word :: rest =>
    if !l.trailing ∧ !l.isWaiting ∧ g.isCommand word then
      match g.command? word with
      | some below => do
        let levels ← readWords e below (title ++ "-" ++ below.name) {} rest
        let given ← l.finish g e title true
        return (g.name, given) :: levels
      | none => .error (helpFor g rest)
    else do
      let l ← l.take g title word
      readWords e g title l rest

end DepositForm.Command
