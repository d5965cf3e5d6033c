import DepositForm.Json.Read
import DepositForm.Toml.Read

/-! # The formats of documents

A reader of announced values reads a text in any of them. Where it fails, a message says why. For
JSON the message is worked out here. For TOML it is told by whoever reads TOML: the place, the line
it is in and the reason, none of which a reader of announced values knows. `Toml.Wording` stands for
what is told there. It is a parameter of all that may show it, and says nothing about whether a text
can be read, and as what.
-/
namespace DepositForm

/-- Reads an announced value, whatever format announces it. -/
abbrev Reader (α : Type) := {ε : Type} → Announced ε → Except (ReadError ε) α

/-- What is said of a TOML text in which a reader fails with an error, or, if there is none, of a
text that is no TOML. -/
abbrev Toml.Wording := String → Option (ReadError Empty) → String

inductive Format where
  | json
  | toml
deriving DecidableEq, Repr

namespace Format

variable {α : Type}

def name : Format → String
  | json => "json"
  | toml => "toml"

/-- Reads a TOML text. -/
def readToml (wording : Toml.Wording) (reader : Reader α) (text : String) : Except String α :=
  (Toml.read reader text).mapError (wording text)

/-- Reads a JSON text. -/
def readJson (reader : Reader α) (text : String) : Except String α :=
  (Json.read reader text).mapError (Json.errorMessage text)

/-- Reads a text; the error is a message. -/
def read (wording : Toml.Wording) (f : Format) (reader : Reader α) (text : String) :
    Except String α :=
  match f with
  | json => readJson reader text
  | toml => readToml wording reader text

end Format
end DepositForm
