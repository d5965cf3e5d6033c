import DepositForm.Log
import Mathlib.Data.List.Induction

/-! # What is shown of a log

One rule decides about a target: of those that apply the one with the longest text, and of these
the last (`Decides`). The program looks for it in one go through the filter, with the best rule so
far in hand; that this finds it is an induction on the filter from its end, because a rule can only
be beaten by one behind it (`rule?_eq_some`).

What is asked for in words goes before what the command line asks for, and a line that is shown
stays shown if the command line asks for more (`shown_by_verbosity`). The log is set up once: it
makes no difference how often that is tried (`set_up_once`).
-/
namespace DepositForm.Log

/-! ## The rule that decides -/

namespace Filter

/-- Of the rules that apply to a target, none has a longer text than `r`, and none behind it has one
as long. -/
def Decides (f : Filter) (target : String) (r : Rule) : Prop :=
  r.Applies target ∧ ∃ before after, f = before ++ r :: after ∧
    (∀ b ∈ before, b.Applies target → b.target.length ≤ r.target.length) ∧
    ∀ a ∈ after, a.Applies target → a.target.length < r.target.length

variable {f : Filter} {target : String} {r last : Rule}

theorem Decides.length_le (h : f.Decides target r) :
    ∀ other ∈ f, other.Applies target → other.target.length ≤ r.target.length := by
  obtain ⟨-, before, after, rfl, hbefore, hafter⟩ := h
  intro other hmem happlies
  rcases List.mem_append.mp hmem with hfront | hback
  · exact hbefore other hfront happlies
  rcases List.mem_cons.mp hback with rfl | hback
  · exact Nat.le_refl _
  · exact Nat.le_of_lt (hafter other hback happlies)

/-- The last rule decides where it applies and none in front of it has a longer text. Otherwise the
decision is that of the rules in front of it. -/
theorem decides_concat :
    Decides (f ++ [last]) target r ↔
      (r = last ∧ last.Applies target ∧
        ∀ b ∈ f, b.Applies target → b.target.length ≤ last.target.length) ∨
      (f.Decides target r ∧ (last.Applies target → last.target.length < r.target.length)) := by
  constructor
  · rintro ⟨happlies, before, after, hf, hbefore, hafter⟩
    rcases List.eq_nil_or_concat after with rfl | ⟨front, x, rfl⟩
    · obtain ⟨rfl, hlast⟩ := List.append_inj' hf rfl
      cases hlast
      exact .inl ⟨rfl, happlies, hbefore⟩
    · rw [List.concat_eq_append, ← List.cons_append, ← List.append_assoc] at hf
      obtain ⟨rfl, hlast⟩ := List.append_inj' hf rfl
      cases hlast
      rw [List.concat_eq_append, List.forall_mem_append] at hafter
      exact .inr ⟨⟨happlies, before, front, rfl, hbefore, hafter.1⟩,
        hafter.2 last List.mem_cons_self⟩
  · rintro (⟨rfl, happlies, hbefore⟩ | ⟨⟨happlies, before, after, rfl, hbefore, hafter⟩, hlast⟩)
    · exact ⟨happlies, f, [], rfl, hbefore, List.forall_mem_nil _⟩
    · refine ⟨happlies, before, after ++ [last], by simp, hbefore, ?_⟩
      rw [List.forall_mem_append]
      exact ⟨hafter, by simpa using hlast⟩

theorem rule?_concat :
    rule? (f ++ [last]) target =
      if last.Applies target then better (f.rule? target) last else f.rule? target := by
  unfold rule?
  rw [List.filter_append, List.foldl_append]
  by_cases happlies : last.Applies target
  · rw [if_pos happlies, List.filter_cons_of_pos (by simpa using happlies)]
    rfl
  · rw [if_neg happlies, List.filter_cons_of_neg (by simpa using happlies)]
    rfl

theorem better_ne_none (best : Option Rule) (next : Rule) : better best next ≠ none := by
  unfold better
  split
  · split <;> simp
  · simp

theorem rule?_eq_none : f.rule? target = none ↔ ∀ r ∈ f, ¬ r.Applies target := by
  induction f using List.reverseRecOn with
  | nil => exact iff_of_true rfl (List.forall_mem_nil _)
  | append_singleton front last ih =>
    rw [rule?_concat, List.forall_mem_append, ← ih]
    by_cases happlies : last.Applies target
    · rw [if_pos happlies]
      exact iff_of_false (better_ne_none _ _) fun h => h.2 last List.mem_cons_self happlies
    · rw [if_neg happlies]
      exact (and_iff_left (by simpa using happlies)).symm

/-- **The filter goes by the rule that decides.** -/
theorem rule?_eq_some : f.rule? target = some r ↔ f.Decides target r := by
  induction f using List.reverseRecOn generalizing r with
  | nil =>
    refine iff_of_false (fun h => nomatch h) ?_
    rintro ⟨-, before, after, hf, -⟩
    simp at hf
  | append_singleton front last ih =>
    rw [rule?_concat, decides_concat, ← ih]
    by_cases happlies : last.Applies target
    swap
    · rw [if_neg happlies]
      exact ⟨fun h => .inr ⟨h, fun h' => absurd h' happlies⟩,
        fun h => h.elim (fun h => absurd h.2.1 happlies) And.left⟩
    rw [if_pos happlies]
    cases hbest : rule? front target with
    | none =>
      have hnone := rule?_eq_none.mp hbest
      constructor
      · rintro ⟨⟩
        exact .inl ⟨rfl, happlies, fun b hb h => absurd h (hnone b hb)⟩
      · rintro (⟨rfl, -⟩ | ⟨⟨⟩, -⟩)
        rfl
    | some best =>
      -- No rule in front has a longer text than the best one.
      have hdecides := ih.mp hbest
      have hle := hdecides.length_le
      rw [better]
      by_cases hlonger : best.target.length ≤ last.target.length
      · rw [if_pos hlonger]
        constructor
        · rintro ⟨⟩
          exact .inl ⟨rfl, happlies, fun b hb h => Nat.le_trans (hle b hb h) hlonger⟩
        · rintro (⟨rfl, -⟩ | ⟨⟨⟩, hlast⟩)
          · rfl
          · exact absurd (hlast happlies) (Nat.not_lt.mpr hlonger)
      · rw [if_neg hlonger]
        constructor
        · rintro ⟨⟩
          exact .inr ⟨rfl, fun _ => Nat.not_le.mp hlonger⟩
        · rintro (⟨rfl, -, hall⟩ | ⟨hr, -⟩)
          · obtain ⟨hbestApplies, before, after, rfl, -⟩ := hdecides
            exact absurd (hall best (by simp) hbestApplies) hlonger
          · exact hr

/-! ## Lines that are shown -/

/-- A line is shown if it is grave enough for the rule that decides about its target. Where no rule
applies nothing is shown. -/
theorem shows_iff {severity : Severity} :
    f.shows target severity = true ↔
      ∃ r, f.Decides target r ∧ severity.rank ≤ r.threshold := by
  simp only [← rule?_eq_some, shows]
  cases f.rule? target <;> simp

/-- With a line everything graver is shown of its target. -/
theorem shows_of_rank_le {severity graver : Severity} (hrank : graver.rank ≤ severity.rank)
    (h : f.shows target severity = true) : f.shows target graver = true := by
  obtain ⟨r, hr, hle⟩ := shows_iff.mp h
  exact shows_iff.mpr ⟨r, hr, Nat.le_trans hrank hle⟩

/-- One threshold for all targets. -/
theorem shows_everywhere {threshold : Threshold} {severity : Severity} :
    shows [⟨"", threshold⟩] target severity = true ↔ severity.rank ≤ threshold := by
  have hdecides : Decides [⟨"", threshold⟩] target ⟨"", threshold⟩ :=
    ⟨List.nil_prefix, [], [], rfl, List.forall_mem_nil _, List.forall_mem_nil _⟩
  rw [shows, rule?_eq_some.mpr hdecides]
  exact decide_eq_true_iff

end Filter

/-! ## The log of the program -/

variable {asked : Option String} {times : Nat}

theorem mem_write {log : Log} {line : Line} :
    line ∈ log.write line ↔
      ∃ f, log.filter = some f ∧ f.shows line.target line.severity = true := by
  unfold write
  cases log.filter with
  | none => simp
  | some f => by_cases h : f.shows line.target line.severity = true <;> simp [h]

/-- Words with a rule in them are all that counts. -/
theorem ofVerbosity_of_asked (h : Filter.rulesOf (asked.getD "") ≠ []) :
    (ofVerbosity times asked).filter = some (Filter.rulesOf (asked.getD "")) := by
  rw [ofVerbosity, Filter.ofText]
  cases hrules : Filter.rulesOf (asked.getD "") with
  | nil => exact absurd hrules h
  | cons r rest => rfl

/-- Without a rule in words all targets have the threshold of the command line. -/
theorem ofVerbosity_of_unasked (h : Filter.rulesOf (asked.getD "") = []) :
    (ofVerbosity times asked).filter = some [⟨"", .ofVerbosity times⟩] := by
  rw [ofVerbosity, Filter.ofText, h]

/-- **What the program shows of its log.** Where words ask for something, the command line does not
count. Where they do not, a line is shown if its rank is within the threshold of the command line,
and among these is the line that the log begins with. Either way what is shown stays shown if the
command line asks for more. -/
theorem shown_by_verbosity (asked : Option String) (times : Nat) :
    (Filter.rulesOf (asked.getD "") ≠ [] → ofVerbosity times asked = ofVerbosity 0 asked) ∧
    (Filter.rulesOf (asked.getD "") = [] →
      (∀ line, line ∈ (ofVerbosity times asked).write line ↔
        line.severity.rank ≤ min (2 + times) 5) ∧
      ∀ line ∈ openingLine? times, line ∈ (ofVerbosity times asked).write line) ∧
    ∀ more line, times ≤ more → line ∈ (ofVerbosity times asked).write line →
      line ∈ (ofVerbosity more asked).write line := by
  have hunasked : Filter.rulesOf (asked.getD "") = [] → ∀ times line,
      line ∈ (ofVerbosity times asked).write line ↔ line.severity.rank ≤ min (2 + times) 5 := by
    intro h times line
    rw [mem_write, ofVerbosity_of_unasked h]
    simp [Filter.shows_everywhere, Threshold.ofVerbosity]
  refine ⟨fun h => ?_, fun h => ⟨hunasked h times, fun line hline => ?_⟩, ?_⟩
  · have hsame : (ofVerbosity times asked).filter = (ofVerbosity 0 asked).filter := by
      rw [ofVerbosity_of_asked h, ofVerbosity_of_asked h]
    exact congrArg (Log.mk · false) hsame
  · rw [hunasked h]
    match times, hline with
    | 1, rfl | 2, rfl => decide
    | n + 3, rfl =>
      change 4 ≤ min (2 + (n + 3)) 5
      omega
  · intro more line hmore hshown
    by_cases h : Filter.rulesOf (asked.getD "") = []
    · rw [hunasked h] at hshown ⊢
      omega
    · rw [mem_write, ofVerbosity_of_asked h] at hshown ⊢
      exact hshown

/-! ## The set-up for tests -/

theorem isSetUp_setUp (asked : Option String) (log : Log) :
    (log.setUp asked).2.isSetUp = true := by
  unfold setUp
  split
  · assumption
  · cases log.filter <;> rfl

/-- A log that is set up is left alone. -/
theorem setUp_of_isSetUp {log : Log} (h : log.isSetUp = true) : log.setUp asked = ([], log) :=
  if_pos h

theorem setUpTimes_of_isSetUp {log : Log} (h : log.isSetUp = true) :
    ∀ n, setUpTimes asked n log = ([], log)
  | 0 => rfl
  | n + 1 => by
    rw [setUpTimes, setUp_of_isSetUp h]
    dsimp only
    rw [setUpTimes_of_isSetUp h n]
    rfl

/-- **The log is set up once.** However often it is tried, it comes to the same as doing it once. A
filter that the log has stays; only a log without one is given the filter for tests. -/
theorem set_up_once (asked : Option String) (n : Nat) (log : Log) :
    setUpTimes asked (n + 1) log = log.setUp asked ∧
    (log.isSetUp = false →
      (log.setUp asked).2 = ⟨some (log.filter.getD (testFilter asked)), true⟩) := by
  constructor
  · rw [setUpTimes]
    dsimp only
    rw [setUpTimes_of_isSetUp (isSetUp_setUp asked log) n]
    simp
  · intro h
    rw [setUp, if_neg (Bool.eq_false_iff.mp h)]
    cases log.filter <;> rfl

end DepositForm.Log
