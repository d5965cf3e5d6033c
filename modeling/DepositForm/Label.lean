import DepositForm.Letter.Case

/-! # Labels of categories

A category without labels of its own is shown as the default one.
-/
namespace DepositForm

/-- Labels by category key. The first one counts where a key is repeated. -/
structure LabelSet where
  entries : List (String × String)
deriving DecidableEq, Repr

namespace LabelSet

def get? (labels : LabelSet) (key : String) : Option String := labels.entries.lookup key

def contains (labels : LabelSet) (key : String) : Bool := (labels.get? key).isSome

def keys (labels : LabelSet) : List String := labels.entries.map (·.1)

/-- The label of `key`, or else that of `fallback`, or else nothing. -/
def lookup (labels : LabelSet) (key fallback : String) : String :=
  (labels.get? key <|> labels.get? fallback).getD ""

def singulars : LabelSet := ⟨[("person", "person"), ("community", "community")]⟩

def plurals : LabelSet := ⟨[("person", "persons"), ("community", "communities")]⟩

end LabelSet

/-- A category by its key, known or not. -/
structure Category where
  key : String
deriving DecidableEq, Repr

namespace Category

/-- The category that stands in for those without labels. -/
def standard : Category := ⟨"community"⟩

def isKnown (c : Category) : Bool :=
  LabelSet.singulars.contains c.key && LabelSet.plurals.contains c.key

def singular (c : Category) : String := LabelSet.singulars.lookup c.key standard.key

def plural (c : Category) : String := LabelSet.plurals.lookup c.key standard.key

/-- The label in the form that is asked for. -/
def label (c : Category) (plural capitalized : Bool) : String :=
  let word := if plural then c.plural else c.singular
  if capitalized then Letter.capitalize word else word

end Category
end DepositForm
