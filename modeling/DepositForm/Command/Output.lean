import DepositForm.Failure

/-! # What a command prints

Lines on either channel, and words in colour where that is wanted. A command prints on its way: what
it has printed stays printed if it fails later (`Printing`).
-/
namespace DepositForm.Command

inductive Colour where
  | green
  | yellow
  | boldRed
  | boldCyan
deriving DecidableEq, Repr

/-- The number by which a terminal knows a colour. -/
def Colour.code : Colour → String
  | green => "32"
  | yellow => "33"
  | boldRed => "1;31"
  | boldCyan => "1;36"

/-- Whether colours are wanted. -/
abbrev Coloured := Bool

/-- A text in a colour, if colours are wanted. -/
def paint (coloured : Coloured) (c : Colour) (s : String) : String :=
  if coloured then "\x1b[" ++ c.code ++ "m" ++ s ++ "\x1b[0m" else s

/-- The lines that are printed, on the standard channel and on the one for errors. -/
structure Output where
  lines : List String := []
  warnings : List String := []
deriving DecidableEq, Repr

/-- A value after its label. -/
def labelled (coloured : Coloured) (label value : String) : String :=
  paint coloured .green label ++ ": " ++ value

/-- Work that prints on its way. -/
abbrev Printing (m : Type → Type) := ExceptT Failure (StateT Output m)

section Printing
variable {m : Type → Type} [Monad m] {α : Type}

/-- Prints a line. -/
def say (line : String) : Printing m Unit :=
  modify fun o => { o with lines := o.lines ++ [line] }

/-- Prints a line on the channel for errors. -/
def warn (line : String) : Printing m Unit :=
  modify fun o => { o with warnings := o.warnings ++ [line] }

/-- Does work that prints nothing. -/
def silently (work : ExceptT Failure m α) : Printing m α :=
  ExceptT.mk (StateT.lift work.run)

end Printing

/-- The text of some lines. -/
def unlines (lines : List String) : String := String.join (lines.map (· ++ "\n"))

/-- How a command ended. -/
structure Report where
  exitCode : Nat
  out : String
  err : String
deriving DecidableEq, Repr

/-- A failure, and what has been printed before it. -/
structure Stopped where
  failure : Failure
  printed : Output
deriving DecidableEq, Repr

instance : Coe Stopped Failure := ⟨Stopped.failure⟩

/-- The report of a command that has printed something and may have failed then. The message of a
failure comes last on the channel for errors. -/
def report (coloured : Coloured) : Except Stopped Output → Report
  | .ok o => ⟨0, unlines o.lines, unlines o.warnings⟩
  | .error ⟨f, o⟩ =>
    ⟨f.exitCode, unlines o.lines,
      unlines (o.warnings ++ [paint coloured .boldRed "error" ++ ": " ++ f.message])⟩

end DepositForm.Command
