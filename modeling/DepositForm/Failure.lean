import DepositForm.Entry.Kind
import DepositForm.Storage.Basic

/-! # Why a command fails

The causes, their wording, and the exit code that tells the kind of cause.
-/
namespace DepositForm

/-- What can be wrong with the data that a command works on. -/
inductive DataError where
  | form (e : FormError)
  /-- The path has no extension that tells a format. -/
  | unsupported (path : Path)
  | unparsable (path : Path) (message : String)
  | settings (message : String)
  /-- What was done, with what, and what the storage said. -/
  | unreadable (action : String) (path : Path) (cause : StorageError)
deriving DecidableEq, Repr

def DataError.message : DataError → String
  | form e => e.message
  | unsupported path =>
    "unsupported document format: " ++ path.text ++ " (expected .json or .toml)"
  | unparsable path message => "cannot parse " ++ path.text ++ ": " ++ message
  | settings message => "config error: " ++ message
  | unreadable action path _ => "operation failed: " ++ action ++ ": " ++ path.text

/-- Why a command fails. -/
inductive Failure where
  | data (e : DataError)
  | storage (context : String) (cause : StorageError)
  /-- An argument is none that the command knows. -/
  | argument (message : String)
  | usage (message : String)
deriving DecidableEq, Repr

namespace Failure

def message : Failure → String
  | data e => e.message
  | storage context _ => "I/O error: " ++ context
  | argument message => "invalid arguments: " ++ message
  | usage message => message

def exitCode : Failure → Nat
  | argument _ | usage _ => 64
  | data (.form _) | data (.unsupported _) | data (.unparsable _ _) => 65
  | data (.unreadable _ _ _) => 66
  | storage _ _ => 74
  | data (.settings _) => 78

/-- How many parts of the program a failure passes on its way out. Each of them tells it again. -/
def passes : Failure → Nat
  | data (.form _) => 4
  | data _ => 3
  | storage _ _ => 2
  | argument _ | usage _ => 1

/-- What the storage said, if it is the cause. -/
def cause? : Failure → Option StorageError
  | data (.unreadable _ _ cause) | storage _ cause => some cause
  | _ => none

/-- All messages from the outside in: the failure as each part tells it, then its cause. -/
def chain (f : Failure) : List String :=
  List.replicate f.passes f.message ++ f.cause?.toList.map StorageError.message

end Failure
end DepositForm
