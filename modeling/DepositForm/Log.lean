import DepositForm.Letter.Case

/-! # The log

A filter decides which lines of a log are shown. It is a list of rules, each for the targets that
begin with a text or for all; the rule with the longest such text decides. What is asked for in
words goes before what the program would show of its own accord, which depends on how often more was
asked for on its command line.
-/
namespace DepositForm
namespace Log

/-! ## Which lines are shown -/

inductive Severity where
  | trace
  | debug
  | info
  | warn
  | error
deriving DecidableEq, Repr

namespace Severity

def name : Severity → String
  | trace => "TRACE"
  | debug => "DEBUG"
  | info => "INFO"
  | warn => "WARN"
  | error => "ERROR"

/-- How much must be shown for a line to be: errors show first, traces last. -/
def rank : Severity → Nat
  | error => 1
  | warn => 2
  | info => 3
  | debug => 4
  | trace => 5

end Severity

/-- How much is shown: lines of at most this rank, none for zero. -/
abbrev Threshold := Nat

/-- The threshold where `times` more was asked for: warnings are shown in any case, and each time
adds a rank. -/
def Threshold.ofVerbosity (times : Nat) : Threshold := min (2 + times) 5

/-- A threshold by its name in any case, or by its digit. -/
def Threshold.ofText? (s : String) : Option Threshold :=
  match Letter.asciiLower s with
  | "off" | "0" => some 0
  | "error" | "1" => some 1
  | "warn" | "2" => some 2
  | "info" | "3" => some 3
  | "debug" | "4" => some 4
  | "trace" | "5" => some 5
  | _ => none

/-- What is shown of the targets that begin with `target`. -/
structure Rule where
  target : String
  threshold : Threshold
deriving DecidableEq, Repr

/-- The target begins with the text of the rule. -/
def Rule.Applies (r : Rule) (target : String) : Prop := r.target.toList <+: target.toList

instance (r : Rule) (target : String) : Decidable (r.Applies target) :=
  inferInstanceAs (Decidable (_ <+: _))

/-- Whether a text may name targets. -/
def isTarget (s : String) : Bool :=
  !s.isEmpty && s.toList.all fun c => c.isAlphanum || c = '_' || c = ':' || c = '-'

/-- A rule as it is written: a threshold for all targets, or a target with its threshold. A target
alone shows everything. -/
def Rule.ofText? (s : String) : Option Rule :=
  match Threshold.ofText? s with
  | some threshold => some ⟨"", threshold⟩
  | none =>
    let target := String.ofList (s.toList.takeWhile (· ≠ '='))
    if isTarget target then
      match s.toList.dropWhile (· ≠ '=') with
      | [] | ['='] => some ⟨target, 5⟩
      | _ :: rest => (Threshold.ofText? (String.ofList rest)).map (Rule.mk target)
    else none

/-- The rules of a filter. -/
abbrev Filter := List Rule

namespace Filter

/-- The rules of a text, with commas between them. What is no rule is passed over. -/
def rulesOf (s : String) : List Rule := (s.splitOn ",").filterMap Rule.ofText?

/-- A filter as it is written. If there is no rule in it, what is shown is decided by `standard`:
only errors, if it is not told. -/
def ofText (s : String) (standard : Threshold := 1) : Filter :=
  match rulesOf s with
  | [] => [⟨"", standard⟩]
  | rules => rules

/-- The best rule so far, or the next one if its text is as long. -/
def better (best : Option Rule) (next : Rule) : Option Rule :=
  match best with
  | some best => if best.target.length ≤ next.target.length then some next else some best
  | none => some next

/-- The rule that decides about a target: of those that apply the one with the longest text, and of
these the last. -/
def rule? (f : Filter) (target : String) : Option Rule :=
  (f.filter (·.Applies target)).foldl better none

/-- Whether a line is shown. -/
def shows (f : Filter) (target : String) (severity : Severity) : Bool :=
  match f.rule? target with
  | some r => severity.rank ≤ r.threshold
  | none => false

end Filter

/-! ## Logs -/

structure Line where
  severity : Severity
  target : String
  message : String
deriving DecidableEq, Repr

/-- A line as it is shown, without its time. -/
def Line.text (l : Line) : String := l.severity.name ++ " " ++ l.target ++ ": " ++ l.message

end Log

/-- The log of a process: its filter once it has one, and whether it was set up for tests. -/
structure Log where
  filter : Option Log.Filter := none
  isSetUp : Bool := false
deriving DecidableEq, Repr

namespace Log

/-- The line, if it is shown. -/
def write (log : Log) (line : Line) : List Line :=
  match log.filter with
  | some f => if f.shows line.target line.severity then [line] else []
  | none => []

/-- The log of the program: what the environment asks for goes before what the command line does. -/
def ofVerbosity (times : Nat) (asked : Option String) : Log where
  filter := some (Filter.ofText (asked.getD "") (.ofVerbosity times))

/-- The line that the program begins its log with, which tells how much is shown. It has none where
the command line asks for nothing more. -/
def openingLine? : Nat → Option Line
  | 0 => none
  | 1 => some ⟨.info, "rdm_deposit", "Debug mode: info"⟩
  | 2 => some ⟨.debug, "rdm_deposit", "Debug mode: debug"⟩
  | _ => some ⟨.debug, "rdm_deposit", "Debug mode: trace"⟩

/-- The target of the lines that the set-up writes itself. -/
def setUpTarget : String := "rdm_deposit::util::testing"

/-- The filter for tests: what the environment asks for, or else everything from debug lines up. -/
def testFilter (asked : Option String) : Filter :=
  match asked with
  | some s => Filter.ofText s
  | none => Filter.ofText "debug"

/-- Sets up the log for tests and tells the lines it shows meanwhile. -/
def setUp (asked : Option String) (log : Log) : List Line × Log :=
  if log.isSetUp then ([], log)
  else
    let complete : Line := ⟨.info, setUpTarget, "Test Setup complete"⟩
    match log.filter with
    | some _ =>
      let already : Line := ⟨.debug, setUpTarget, "Tracing subscriber already set"⟩
      (log.write already ++ log.write complete, { log with isSetUp := true })
    | none =>
      let log : Log := ⟨some (testFilter asked), true⟩
      (log.write complete, log)

/-- Sets up the log a number of times. -/
def setUpTimes (asked : Option String) : Nat → Log → List Line × Log
  | 0, log => ([], log)
  | n + 1, log =>
    let (lines, log) := log.setUp asked
    let (more, log) := setUpTimes asked n log
    (lines ++ more, log)

end Log
end DepositForm
