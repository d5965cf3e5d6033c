import DepositForm.Entry.Group
import Mathlib.Data.List.Perm.Basic

/-! # Groups over a run of steps

A form fills and empties a group step by step, and some steps are refused. What one step can do is
said once (`step_cases`), and three things follow from it. The entries that a group has and those
that are added are the entries that it has in the end and those that are taken out
(`conserved_step`). The order of the entries is that in which they came (`sublist_step`). And each
step does what can be seen of it by looking at the places before and after it (`does_step`).

The first two are carried over a run by induction on its steps; the last holds at every place of it.
-/
namespace DepositForm.Group

open scoped List

/-- What can be done with a group. -/
inductive Step (α : Type) where
  | push (entry : α)
  | pushBlank
  | remove (index : Nat)
  /-- Makes the group anew from the entries that it has. -/
  | renew

/-- What a step answers. -/
inductive Answer (α : Type) where
  /-- The place of an entry that has been added. -/
  | place (index : Nat)
  /-- The entry that has been taken out. -/
  | taken (entry : α)
  | refused (e : FormError)
  | done

/-- The entry that a step adds. -/
def Step.added? {α : Type} [Entry α] : Step α → Option α
  | push entry => some entry
  | pushBlank => some (Entry.blank α)
  | remove _ | renew => none

def Answer.taken? {α : Type} : Answer α → Option α
  | taken entry => some entry
  | place _ | refused _ | done => none

variable {α : Type} [Entry α]

/-- What a step answers, and the group that it leaves. -/
def step (g : Group α) : Step α → Answer α × Group α
  | .push entry =>
    let (index, g') := g.push entry
    (.place index, g')
  | .pushBlank =>
    let (index, g') := g.pushBlank
    (.place index, g')
  | .remove index =>
    match g.remove index with
    | .ok (entry, g') => (.taken entry, g')
    | .error e => (.refused e, g)
  | .renew => (.done, ⟨g.entries⟩)

/-- The group after some steps. -/
def after (g : Group α) (steps : List (Step α)) : Group α := steps.foldl (fun g s => (g.step s).2) g

/-- What some steps answer, one after the other. -/
def answers (g : Group α) : List (Step α) → List (Answer α)
  | [] => []
  | s :: rest => (g.step s).1 :: answers (g.step s).2 rest

/-- What is seen of a step: its answer, and what is at which place before and after it. -/
inductive Does (g : Group α) : Step α → Answer α → Group α → Prop
  | adds {s entry g'} : s.added? = some entry → g'.get? g.length = some entry →
      (∀ i, i ≠ g.length → g'.get? i = g.get? i) → Does g s (.place g.length) g'
  | takes {index entry g'} : index < g.length → g.get? index = some entry →
      (∀ i, i < index → g'.get? i = g.get? i) → (∀ i, index ≤ i → g'.get? i = g.get? (i + 1)) →
      Does g (.remove index) (.taken entry) g'
  | refuses {index} : g.length ≤ index →
      Does g (.remove index) (.refused (.indexOutOfRange index g.length)) g
  | renews : Does g .renew .done g

/-! ## One step -/

/-- **What a step can do.** It adds an entry at the end, takes one out, is refused, or changes
nothing. -/
theorem step_cases (g : Group α) (s : Step α) :
    (∃ entry, s.added? = some entry ∧ g.step s = (.place g.length, ⟨g.entries ++ [entry]⟩)) ∨
    (∃ index entry, s = .remove index ∧ g.entries[index]? = some entry ∧
      g.step s = (.taken entry, ⟨g.entries.eraseIdx index⟩)) ∨
    (∃ index, s = .remove index ∧ g.length ≤ index ∧
      g.step s = (.refused (.indexOutOfRange index g.length), g)) ∨
    (s = .renew ∧ g.step s = (.done, g)) := by
  cases s with
  | push entry => exact .inl ⟨entry, rfl, rfl⟩
  | pushBlank => exact .inl ⟨Entry.blank α, rfl, rfl⟩
  | renew => exact .inr (.inr (.inr ⟨rfl, rfl⟩))
  | remove index =>
    cases hentry : g.entries[index]? with
    | some entry =>
      refine .inr (.inl ⟨index, entry, rfl, hentry, ?_⟩)
      simp only [step, remove, hentry]
    | none =>
      have hlong : g.length ≤ index := List.getElem?_eq_none_iff.mp hentry
      refine .inr (.inr (.inl ⟨index, rfl, hlong, ?_⟩))
      simp only [step, remove, hentry]

/-- No step loses or doubles an entry. -/
theorem conserved_step (g : Group α) (s : Step α) :
    g.entries ++ s.added?.toList ~ (g.step s).2.entries ++ (g.step s).1.taken?.toList := by
  rcases g.step_cases s with ⟨entry, hadded, hstep⟩ | ⟨index, entry, rfl, hentry, hstep⟩ |
    ⟨index, rfl, -, hstep⟩ | ⟨rfl, hstep⟩
  · rw [hstep, hadded]
    exact .of_eq (List.append_nil _).symm
  · obtain ⟨hindex, rfl⟩ := List.getElem?_eq_some_iff.mp hentry
    rw [hstep]
    calc g.entries ++ [] = g.entries := List.append_nil _
      _ ~ g.entries[index] :: g.entries.eraseIdx index :=
        (List.getElem_cons_eraseIdx_perm hindex).symm
      _ ~ g.entries.eraseIdx index ++ [g.entries[index]] := (List.perm_append_singleton _ _).symm
  · rw [hstep]
    exact .refl _
  · rw [hstep]
    exact .refl _

/-- No step changes the order of the entries. -/
theorem sublist_step (g : Group α) (s : Step α) :
    (g.step s).2.entries.Sublist (g.entries ++ s.added?.toList) := by
  rcases g.step_cases s with ⟨entry, hadded, hstep⟩ | ⟨index, entry, rfl, -, hstep⟩ |
    ⟨index, rfl, -, hstep⟩ | ⟨rfl, hstep⟩
  · rw [hstep, hadded]
    exact .refl _
  · rw [hstep]
    exact (List.eraseIdx_sublist _ _).trans (List.sublist_append_left _ _)
  · rw [hstep]
    exact List.sublist_append_left _ _
  · rw [hstep]
    exact List.sublist_append_left _ _

theorem does_step (g : Group α) (s : Step α) : g.Does s (g.step s).1 (g.step s).2 := by
  rcases g.step_cases s with ⟨entry, hadded, hstep⟩ | ⟨index, entry, rfl, hentry, hstep⟩ |
    ⟨index, rfl, hlong, hstep⟩ | ⟨rfl, hstep⟩
  · rw [hstep]
    refine .adds hadded List.getElem?_concat_length fun i hi => ?_
    -- Another place lies among the old entries or behind the new one.
    rcases Nat.lt_or_gt_of_ne hi with hlt | hgt
    · exact List.getElem?_append_left hlt
    · have hold : g.entries[i]? = none := List.getElem?_eq_none (Nat.le_of_lt hgt)
      have hnew : (g.entries ++ [entry])[i]? = none := by
        apply List.getElem?_eq_none
        rw [List.length_append, List.length_singleton]
        exact hgt
      exact hnew.trans hold.symm
  · obtain ⟨hindex, -⟩ := List.getElem?_eq_some_iff.mp hentry
    rw [hstep]
    refine .takes hindex hentry (fun i hi => ?_) fun i hi => ?_
    · exact List.getElem?_eraseIdx.trans (if_pos hi)
    · exact List.getElem?_eraseIdx.trans (if_neg (Nat.not_lt.mpr hi))
  · rw [hstep]
    exact .refuses hlong
  · rw [hstep]
    exact .renews

/-! ## Runs -/

theorem filterMap_cons_eq {β γ : Type} (f : β → Option γ) (b : β) (l : List β) :
    (b :: l).filterMap f = (f b).toList ++ l.filterMap f := by
  rw [List.filterMap_eq_flatMap_toList, List.flatMap_cons, ← List.filterMap_eq_flatMap_toList]

theorem conserved_run (g : Group α) (steps : List (Step α)) :
    g.entries ++ steps.filterMap Step.added? ~
      (g.after steps).entries ++ (g.answers steps).filterMap Answer.taken? := by
  induction steps generalizing g with
  | nil => exact .refl _
  | cons s rest ih =>
    have hstep := g.conserved_step s
    have hrest := ih (g.step s).2
    rw [answers, filterMap_cons_eq, filterMap_cons_eq, ← List.append_assoc]
    set taken := (g.step s).1.taken?.toList
    -- What is taken out now is put in front while the rest of the run goes on.
    calc (g.entries ++ s.added?.toList) ++ rest.filterMap Step.added?
      _ ~ ((g.step s).2.entries ++ taken) ++ rest.filterMap Step.added? := hstep.append_right _
      _ ~ taken ++ ((g.step s).2.entries ++ rest.filterMap Step.added?) := by
        rw [← List.append_assoc]
        exact List.perm_append_comm.append_right _
      _ ~ taken ++ (((g.step s).2.after rest).entries ++
            ((g.step s).2.answers rest).filterMap Answer.taken?) := hrest.append_left _
      _ ~ ((g.step s).2.after rest).entries ++ (taken ++
            ((g.step s).2.answers rest).filterMap Answer.taken?) := by
        rw [← List.append_assoc, ← List.append_assoc]
        exact List.perm_append_comm.append_right _

theorem sublist_run (g : Group α) (steps : List (Step α)) :
    (g.after steps).entries.Sublist (g.entries ++ steps.filterMap Step.added?) := by
  induction steps generalizing g with
  | nil => exact List.sublist_append_left _ _
  | cons s rest ih =>
    have hrest := ih (g.step s).2
    rw [filterMap_cons_eq, ← List.append_assoc]
    exact hrest.trans ((g.sublist_step s).append_right _)

theorem does_run (g : Group α) {steps : List (Step α)} {i : Nat} {s : Step α}
    (h : steps[i]? = some s) :
    ∃ answer, (g.answers steps)[i]? = some answer ∧
      (g.after (steps.take i)).Does s answer (g.after (steps.take (i + 1))) := by
  induction steps generalizing g i with
  | nil => cases h
  | cons first rest ih =>
    cases i with
    | zero =>
      cases h
      exact ⟨_, rfl, g.does_step _⟩
    | succ i => exact ih (g.step first).2 h

/-- **Over any run of steps no entry is lost, doubled or moved past another.** What the group has
had and what has been added is what it has and what has been taken out; what it has stands in the
order in which it came; and every step of the run, refused or not, does what it should to the group
that it finds. -/
theorem entries_kept_over_runs (g : Group α) (steps : List (Step α)) :
    g.entries ++ steps.filterMap Step.added? ~
      (g.after steps).entries ++ (g.answers steps).filterMap Answer.taken? ∧
    (g.after steps).entries.Sublist (g.entries ++ steps.filterMap Step.added?) ∧
    ∀ i s, steps[i]? = some s → ∃ answer, (g.answers steps)[i]? = some answer ∧
      (g.after (steps.take i)).Does s answer (g.after (steps.take (i + 1))) :=
  ⟨g.conserved_run steps, g.sublist_run steps, fun _ _ => g.does_run⟩

end DepositForm.Group
