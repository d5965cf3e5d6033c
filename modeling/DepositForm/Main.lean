import DepositForm.Command.Run
import DepositForm.Log

/-! # The program

The program reads its command line, opens its log, does what is asked for with the files of the
system, and prints what there is to print. Who runs it hands it the texts that it does not make.
-/
namespace DepositForm

/-- What a failed call of the system says. -/
def StorageError.ofSystem (e : IO.Error) : StorageError :=
  match e with
  | .noFileOrDirectory _ _ _ => .notFound
  | .alreadyExists _ _ _ => .alreadyExists
  | e => .other (toString e)

/-- Does something with the system and tells how it went. -/
def tryIO {α : Type} (action : IO α) : IO (Except StorageError α) := do
  try
    return .ok (← action)
  catch e =>
    return .error (.ofSystem e)

/-- The files of the system. -/
def systemStorage : Storage IO where
  isThere path := do
    if path.text.isEmpty then return false
    match ← tryIO IO.currentDir with
    | .ok directory => (directory / path.text).pathExists
    | .error _ => return false
  read path := do
    match ← tryIO (IO.FS.readBinFile path.text) with
    | .error e => return .error e
    | .ok bytes =>
      match String.fromUTF8? bytes with
      | some s => return .ok s
      | none => return .error .notText
  write path text := tryIO (IO.FS.writeFile path.text text)
  ensureParent path :=
    match path.parentComponents? with
    | some components => tryIO (IO.FS.createDirAll (Path.ofComponents components).text)
    | none => return .ok ()
  workplace := do
    match ← tryIO IO.currentDir with
    | .ok directory => return .ok ⟨directory.toString⟩
    | .error e => return .error e

/-- The environment of the system. -/
def systemEnvironment : IO Environment := do
  match ← tryIO (IO.FS.readBinFile "/proc/self/environ") with
  | .ok block => return .ofBlock block.toList
  | .error _ => return {}

/-- Runs the program. What is said of a command line that is not carried out is told by `refused`,
unless it is the version. -/
def runProgram (borrowed : Command.Borrowed) (refused : List String → Command.Refusal → String)
    (words : List String) : IO UInt32 := do
  let e ← systemEnvironment
  match Invocation.ofWords e words with
  | .error refusal =>
    let text := match refusal with
      | .version text => text
      | _ => refused words refusal
    if refusal.exitCode = 0 then IO.print text else IO.eprint text
    return refusal.exitCode.toUInt32
  | .ok i =>
    let log := Log.ofVerbosity i.verbosity (e.get? "RUST_LOG")
    (((Log.openingLine? i.verbosity).toList.flatMap log.write).map Log.Line.text).forM IO.eprintln
    let report := Command.report false
      (← (Command.run borrowed systemStorage e false i).run)
    IO.print report.out
    IO.eprint report.err
    return report.exitCode.toUInt32

end DepositForm
