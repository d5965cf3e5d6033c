import DepositForm.Proofs.Document.Walks

/-! # Walks that may fail

A call on a leaf may fail, and whether it does may depend on the calls that came before it. A walk
that minds this calls its function on the leaves in order and stops with the first call that fails:
each sequence and mapping around that leaf hands on what stopped the walk below it, and goes to no
further child.

`Calls` says on a list of leaves what such calls come to, with a rule for each way in which they can
go on or end. The walk through a tree makes the calls of its leaves (`calls_tryVisit`), so that what
is left to prove is about lists. Which leaves the function has been called on is told by the
function itself: `recording` is the same function with a list of its calls beside the state.
-/
namespace DepositForm.Node

variable {σ ε : Type} (f : σ → Scalar → Except ε Unit × σ)

/-! ## Calls on a list of leaves -/

/-- From the state `s` on, `f` is called on the first of some leaves, those in `called`, and the
calls come to a result and a state. -/
inductive Calls : σ → List Scalar → (called : List Scalar) → Except ε Unit × σ → Prop where
  /-- There is no leaf left. -/
  | finished (s : σ) : Calls s [] [] (.ok (), s)
  /-- The call on the next leaf succeeds, and the others follow. -/
  | passed {s t : σ} {x : Scalar} {rest called : List Scalar} {r : Except ε Unit × σ}
      (hcall : f s x = (.ok (), t)) (hrest : Calls t rest called r) :
      Calls s (x :: rest) (x :: called) r
  /-- The call on the next leaf fails, and no other follows. -/
  | failed {s t : σ} {x : Scalar} {rest : List Scalar} {e : ε}
      (hcall : f s x = (.error e, t)) : Calls s (x :: rest) [x] (.error e, t)

/-- The state that calls on some leaves lead to, whether they fail or not. -/
def stateAfter (s : σ) (xs : List Scalar) : σ := xs.foldl (fun s x => (f s x).2) s

/-- Every call on some leaves succeeds in the state that those before it lead to. -/
def Passes (s : σ) : List Scalar → Prop
  | [] => True
  | x :: rest => (f s x).1 = .ok () ∧ Passes (f s x).2 rest

/-- The function with a list of the leaves that it has been called on. -/
def recording (s : σ × List Scalar) (x : Scalar) : Except ε Unit × (σ × List Scalar) :=
  ((f s.1 x).1, ((f s.1 x).2, s.2 ++ [x]))

namespace Calls

variable {f} {s t : σ} {xs ys called more : List Scalar} {r r' : Except ε Unit × σ}

/-- After calls that succeed, further leaves are called on from the state reached. -/
theorem append (h : Calls f s xs called (.ok (), t)) (hmore : Calls f t ys more r) :
    Calls f s (xs ++ ys) (called ++ more) r := by
  generalize hr : (Except.ok (), t) = result at h
  induction h with
  | finished s =>
    cases hr
    exact hmore
  | passed hcall _ ih => exact .passed hcall (ih hr)
  | failed hcall => cases hr

/-- After a call that fails, further leaves make no difference. -/
theorem stopped {e : ε} (h : Calls f s xs called (.error e, t)) (ys : List Scalar) :
    Calls f s (xs ++ ys) called (.error e, t) := by
  generalize hr : (Except.error e, t) = result at h
  induction h with
  | finished s => cases hr
  | passed hcall _ ih => exact .passed hcall (ih hr)
  | failed hcall => exact .failed hcall

/-- The calls are settled by the function, the state and the leaves. -/
theorem unique (h : Calls f s xs called r) (h' : Calls f s xs more r') :
    called = more ∧ r = r' := by
  induction h generalizing more with
  | finished s =>
    cases h'
    exact ⟨rfl, rfl⟩
  | passed hcall _ ih =>
    cases h' with
    | passed hcall' hrest' =>
      -- Both go on from the state that the same call has led to.
      obtain rfl := (Prod.mk.inj (hcall.symm.trans hcall')).2
      obtain ⟨rfl, rfl⟩ := ih hrest'
      exact ⟨rfl, rfl⟩
    | failed hcall' => cases hcall.symm.trans hcall'
  | failed hcall =>
    cases h' with
    | passed hcall' _ => cases hcall.symm.trans hcall'
    | failed hcall' => exact ⟨rfl, hcall.symm.trans hcall'⟩

/-- The leaves called on are the first ones. -/
theorem exists_later (h : Calls f s xs called r) : ∃ later, xs = called ++ later := by
  induction h with
  | finished s => exact ⟨[], rfl⟩
  | passed _ _ ih =>
    obtain ⟨later, rfl⟩ := ih
    exact ⟨later, rfl⟩
  | @failed _ _ x rest _ _ => exact ⟨rest, rfl⟩

/-- If no call fails, the function is called on every leaf. -/
theorem of_ok (h : Calls f s xs called (.ok (), t)) :
    called = xs ∧ Passes f s xs ∧ t = stateAfter f s xs := by
  generalize hr : (Except.ok (), t) = result at h
  induction h with
  | finished s =>
    cases hr
    exact ⟨rfl, trivial, rfl⟩
  | @passed s _ x rest _ _ hcall _ ih =>
    obtain ⟨hcalled, hpasses, ht⟩ := ih hr
    have hstate : stateAfter f s (x :: rest) = stateAfter f (f s x).2 rest := rfl
    rw [hstate, Passes, hcall]
    exact ⟨congrArg (x :: ·) hcalled, ⟨rfl, hpasses⟩, ht⟩
  | failed hcall => cases hr

/-- If a call fails, it is the last one, and those before it succeed. -/
theorem of_error {e : ε} (h : Calls f s xs called (.error e, t)) :
    ∃ before x, called = before ++ [x] ∧ Passes f s before ∧
      f (stateAfter f s before) x = (.error e, t) := by
  generalize hr : (Except.error e, t) = result at h
  induction h with
  | finished s => cases hr
  | @passed s _ x _ _ _ hcall _ ih =>
    obtain ⟨before, last, rfl, hpasses, hlast⟩ := ih hr
    have hstate : stateAfter f s (x :: before) = stateAfter f (f s x).2 before := rfl
    refine ⟨x :: before, last, rfl, ?_, ?_⟩
    · rw [Passes, hcall]
      exact ⟨rfl, hpasses⟩
    · rw [hstate, hcall]
      exact hlast
  | @failed s _ x _ _ hcall =>
    cases hr
    exact ⟨[], x, rfl, trivial, hcall⟩

/-- Calls all of which succeed do not come to an error. -/
theorem not_passes_of_error {e : ε} (h : Calls f s xs called (.error e, t)) : ¬ Passes f s xs := by
  generalize hr : (Except.error e, t) = result at h
  induction h with
  | finished s => cases hr
  | passed hcall _ ih =>
    rintro ⟨-, hrest⟩
    rw [hcall] at hrest
    exact ih hr hrest
  | failed hcall =>
    rintro ⟨hfirst, -⟩
    rw [hcall] at hfirst
    cases hfirst

/-- A function that records its calls makes the same ones, and has recorded them in the end. -/
theorem recorded (h : Calls f s xs called r) (seen : List Scalar) :
    Calls (recording f) (s, seen) xs called (r.1, (r.2, seen ++ called)) := by
  induction h generalizing seen with
  | finished s =>
    rw [List.append_nil]
    exact .finished (s, seen)
  | @passed s t x _ called _ hcall _ ih =>
    have hrecording : recording f (s, seen) x = (.ok (), (t, seen ++ [x])) := by
      rw [recording, hcall]
    have hseen : seen ++ x :: called = (seen ++ [x]) ++ called := by simp
    rw [hseen]
    exact .passed hrecording (ih (seen ++ [x]))
  | @failed s t x _ e hcall =>
    have hrecording : recording f (s, seen) x = (.error e, (t, seen ++ [x])) := by
      rw [recording, hcall]
    exact .failed hrecording

end Calls

/-! ## Calls on a tree -/

mutual
/-- **A walk that may fail makes the calls of the leaves**, by induction on the tree: a container
that is left early has called nothing after the leaf that failed. -/
theorem calls_tryVisit (s : σ) : ∀ n : Node, ∃ called, Calls f s n.leaves called (n.tryVisit f s)
  | leaf x => by
    rw [leaves, tryVisit]
    rcases hcall : f s x with ⟨_ | _, t⟩
    · exact ⟨[x], .failed hcall⟩
    · exact ⟨[x], .passed hcall (.finished t)⟩
  | sequence items => by
    rw [leaves, tryVisit]
    exact calls_tryItems s items
  | mapping entries => by
    rw [leaves, tryVisit]
    exact calls_tryEntries s entries

theorem calls_tryItems (s : σ) :
    ∀ items : List Node, ∃ called, Calls f s (itemLeaves items) called (tryItems f s items)
  | [] => ⟨[], .finished s⟩
  | n :: rest => by
    obtain ⟨called, hcalls⟩ := calls_tryVisit s n
    rw [itemLeaves, tryItems]
    rcases hresult : n.tryVisit f s with ⟨_ | _, t⟩
    · -- The items after this one are not visited, and their leaves are not called on.
      rw [hresult] at hcalls
      exact ⟨called, hcalls.stopped _⟩
    · rw [hresult] at hcalls
      obtain ⟨more, hmore⟩ := calls_tryItems t rest
      exact ⟨called ++ more, hcalls.append hmore⟩

theorem calls_tryEntries (s : σ) : ∀ entries : List (String × Node),
    ∃ called, Calls f s (entryLeaves entries) called (tryEntries f s entries)
  | [] => ⟨[], .finished s⟩
  | (_, n) :: rest => by
    obtain ⟨called, hcalls⟩ := calls_tryVisit s n
    rw [entryLeaves, tryEntries]
    rcases hresult : n.tryVisit f s with ⟨_ | _, t⟩
    · rw [hresult] at hcalls
      exact ⟨called, hcalls.stopped _⟩
    · rw [hresult] at hcalls
      obtain ⟨more, hmore⟩ := calls_tryEntries t rest
      exact ⟨called ++ more, hcalls.append hmore⟩
end

/-- What a walk comes to that records its calls. -/
theorem tryVisit_recording {s : σ} {n : Node} {called : List Scalar}
    (h : Calls f s n.leaves called (n.tryVisit f s)) :
    n.tryVisit (recording f) (s, []) = ((n.tryVisit f s).1, ((n.tryVisit f s).2, called)) := by
  obtain ⟨called', hcalls⟩ := calls_tryVisit (recording f) (s, []) n
  exact (hcalls.unique (h.recorded [])).2

/-- **A walk that may fail stops with the first leaf that fails, and only there.** It calls its
function on the first leaves of the tree, in order. Either all of these calls but the last succeed,
the last one fails in the state that the others lead to, and the walk comes to that error and the
state after it; or every call succeeds, no leaf is left, and the walk comes to the state of the walk
that does not look at results. It succeeds just when the calls on all leaves do. -/
theorem tryVisit_stops_at_first_failure (n : Node) (s : σ) :
    (∃ called later, n.leaves = called ++ later ∧
      n.tryVisit (recording f) (s, []) = ((n.tryVisit f s).1, ((n.tryVisit f s).2, called)) ∧
      ((∃ before x e t, called = before ++ [x] ∧ Passes f s before ∧
          f (stateAfter f s before) x = (.error e, t) ∧ n.tryVisit f s = (.error e, t)) ∨
        later = [] ∧ Passes f s n.leaves ∧
          n.tryVisit f s = (.ok (), n.visit (fun s x => (f s x).2) s))) ∧
    ((n.tryVisit f s).1 = .ok () ↔ Passes f s n.leaves) := by
  obtain ⟨called, hcalls⟩ := calls_tryVisit f s n
  obtain ⟨later, hlater⟩ := hcalls.exists_later
  have hrecording := tryVisit_recording f hcalls
  rcases hresult : n.tryVisit f s with ⟨e | _, t⟩
  · rw [hresult] at hcalls hrecording
    obtain ⟨before, x, hcalled, hpasses, hlast⟩ := hcalls.of_error
    refine ⟨⟨called, later, hlater, hrecording, .inl ?_⟩, ?_⟩
    · exact ⟨before, x, e, t, hcalled, hpasses, hlast, rfl⟩
    · constructor
      · rintro ⟨⟩
      · intro hall
        exact absurd hall hcalls.not_passes_of_error
  · rw [hresult] at hcalls hrecording
    obtain ⟨hcalled, hpasses, ht⟩ := hcalls.of_ok
    have hdone : later = [] := by
      have hlength := congrArg List.length hlater
      rw [hcalled, List.length_append] at hlength
      exact List.eq_nil_of_length_eq_zero (by omega)
    have hstate : t = n.visit (fun s x => (f s x).2) s := by
      rw [visit_eq_foldl, ht]
      rfl
    refine ⟨⟨called, later, hlater, hrecording, .inr ⟨hdone, hpasses, ?_⟩⟩, ?_⟩
    · rw [hstate]
    · exact iff_of_true rfl hpasses

end DepositForm.Node
