import DepositForm.Choice
import Mathlib.Data.List.Basic

/-! # Sorted options

The order of texts is total: it compares the lower-case forms, and where these are the same it
compares the texts, so that two texts are in the same place of the order only if they are the same.
Sorted options are therefore in one order but for options with the same text, and these keep the
order that they had. This settles the sorted list: nothing else of the order of the options has any
influence on it (`eq_of_sorted`).

Options whose texts differ in case only stand together. This holds of any list that is sorted by a
key with respect to this key (`filter_infix`), here the lower-case form.
-/
namespace DepositForm.Choice

/-! ## The order of texts -/

instance : Std.TransCmp compareText :=
  inferInstanceAs (Std.TransCmp
    (compareLex (compareOn Letter.lowerText) (compare : String → String → Ordering)))

instance : Std.LawfulEqCmp compareText where
  compare_self := Std.ReflCmp.compare_self
  eq_of_compare h := Std.LawfulEqOrd.eq_of_compare (Ordering.then_eq_eq.mp h).2

/-- A text comes before another one if its lower-case form does; where the forms are the same, the
texts themselves decide. -/
theorem compareText_eq_lt {a b : String} :
    compareText a b = .lt ↔
      Letter.lowerText a < Letter.lowerText b ∨
        Letter.lowerText a = Letter.lowerText b ∧ a < b := by
  have hbefore : ∀ s t : String, compare s t = .lt ↔ s < t := fun _ _ => compareOfLessAndEq_eq_lt
  rw [compareText, Ordering.then_eq_lt, hbefore, hbefore, Std.compare_eq_iff_eq]

/-- **The order of texts is total.** Two texts are in the same place of it just when they are the
same, either way round it says the same, and what does not come after a text does not come after one
further on. The lower-case form decides, although it may be longer than the text and depends on
where in a word a letter stands, and the text itself only where two forms are the same. -/
theorem compareText_total (a b c : String) :
    (compareText a b = .eq ↔ a = b) ∧
    compareText b a = (compareText a b).swap ∧
    (compareText a b ≠ .gt → compareText b c ≠ .gt → compareText a c ≠ .gt) ∧
    (compareText a b = .lt ↔
      Letter.lowerText a < Letter.lowerText b ∨
        Letter.lowerText a = Letter.lowerText b ∧ a < b) := by
  refine ⟨Std.LawfulEqCmp.compare_eq_iff_eq, Std.OrientedCmp.eq_swap, ?_, compareText_eq_lt⟩
  intro hab hbc
  have hac : (compareText a c).isLE :=
    Std.TransCmp.isLE_trans (Ordering.isLE_iff_ne_gt.mpr hab) (Ordering.isLE_iff_ne_gt.mpr hbc)
  exact Ordering.isLE_iff_ne_gt.mp hac

/-- A capital that becomes two characters, and two texts with one lower-case form, in which the last
letter is the sigma that ends a word. -/
theorem compareText_total_sigma :
    compareText "İ" "ΟΔΟΣ" ≠ .gt ∧ compareText "ΟΔΟΣ" "οδος" ≠ .gt ∧
      Letter.lowerText "ΟΔΟΣ" = Letter.lowerText "οδος" ∧ compareText "İ" "οδος" ≠ .gt := by
  have hfirst : compareText "İ" "ΟΔΟΣ" ≠ .gt := by decide +kernel
  have hsecond : compareText "ΟΔΟΣ" "οδος" ≠ .gt := by decide +kernel
  have hform : Letter.lowerText "ΟΔΟΣ" = Letter.lowerText "οδος" := by decide +kernel
  obtain ⟨-, -, htrans, -⟩ := compareText_total "İ" "ΟΔΟΣ" "οδος"
  exact ⟨hfirst, hsecond, hform, htrans hfirst hsecond⟩

/-- An option does not come after another one. -/
def NotAfter (a b : Choice) : Prop := (compareText a.text b.text).isLE = true

theorem NotAfter.trans {a b c : Choice} (h : a.NotAfter b) (h' : b.NotAfter c) : a.NotAfter c :=
  Std.TransCmp.isLE_trans h h'

instance : Trans NotAfter NotAfter NotAfter := ⟨NotAfter.trans⟩

theorem NotAfter.text_eq {a b : Choice} (h : a.NotAfter b) (h' : b.NotAfter a) : a.text = b.text :=
  Std.LawfulEqCmp.eq_of_compare (Std.OrientedCmp.isLE_antisymm h h')

theorem NotAfter.of_text_eq {a b : Choice} (h : a.text = b.text) : a.NotAfter b := by
  rw [NotAfter, h]
  exact Std.ReflCmp.isLE_rfl

theorem notAfter_total (a b : Choice) :
    ((compareText a.text b.text).isLE || (compareText b.text a.text).isLE) = true := by
  rw [Bool.or_eq_true]
  by_cases h : a.NotAfter b
  · exact .inl h
  · exact .inr (Ordering.isLE_of_eq_lt (Std.OrientedCmp.lt_of_not_isLE h))

/-! ## Blocks of a sorted list -/

section Blocks
variable {β κ : Type} [Ord κ] [Std.TransOrd κ] [Std.LawfulEqOrd κ] [DecidableEq κ] {key : β → κ}
  {w : κ} {l : List β}

/-- What has the least key stands in front. -/
theorem filter_least (hsorted : l.Pairwise fun a b => (compare (key a) (key b)).isLE)
    (hleast : ∀ a ∈ l, (compare w (key a)).isLE) : l.filter (key · = w) <+: l := by
  induction l with
  | nil => exact List.prefix_refl _
  | cons a rest ih =>
    obtain ⟨hfirst, hrest⟩ := List.pairwise_cons.mp hsorted
    by_cases ha : key a = w
    · rw [List.filter_cons_of_pos (by simp [ha]), List.prefix_cons_inj]
      exact ih hrest fun b hb => hleast b (List.mem_cons_of_mem _ hb)
    · -- From a greater key on there are greater keys only.
      have hnone : (a :: rest).filter (key · = w) = [] := by
        refine List.filter_eq_nil_iff.mpr fun b hb hbw => ha ?_
        have hab : (compare (key a) (key b)).isLE := by
          rcases List.mem_cons.mp hb with rfl | hb
          · exact Std.ReflCmp.isLE_rfl
          · exact hfirst b hb
        rw [of_decide_eq_true hbw] at hab
        have hwa := hleast a List.mem_cons_self
        exact Std.LawfulEqOrd.eq_of_compare (Std.OrientedCmp.isLE_antisymm hab hwa)
      rw [hnone]
      exact List.nil_prefix

/-- In a list that is sorted by a key, what has the same key stands together. -/
theorem filter_infix (hsorted : l.Pairwise fun a b => (compare (key a) (key b)).isLE) :
    l.filter (key · = w) <:+: l := by
  induction l with
  | nil => exact List.infix_refl _
  | cons a rest ih =>
    obtain ⟨hfirst, hrest⟩ := List.pairwise_cons.mp hsorted
    by_cases ha : key a = w
    · refine (filter_least hsorted fun b hb => ?_).isInfix
      rcases List.mem_cons.mp hb with rfl | hb
      · rw [ha]
        exact Std.ReflCmp.isLE_rfl
      · exact ha ▸ hfirst b hb
    · rw [List.filter_cons_of_neg (by simp [ha])]
      exact List.infix_cons (ih hrest)

end Blocks

/-! ## Lists that are sorted -/

/-- **Two sorted lists with the same options of each text, in the same order, are the same.** The
first options of both lists have the same text, as neither comes after the other, and are then the
first of that text; so they are the same, and the induction goes on with the rest. -/
theorem eq_of_sorted {l l' : List Choice} (hl : l.Pairwise NotAfter) (hl' : l'.Pairwise NotAfter)
    (h : ∀ t, l.filter (·.text = t) = l'.filter (·.text = t)) : l = l' := by
  have hmem : ∀ a : Choice, a ∈ l ↔ a ∈ l' := by
    intro a
    have ha := congrArg (a ∈ ·) (h a.text)
    simpa [List.mem_filter] using ha
  induction l generalizing l' with
  | nil =>
    refine (List.eq_nil_iff_forall_not_mem.mpr fun a ha => ?_).symm
    exact List.not_mem_nil ((hmem a).mpr ha)
  | cons a rest ih =>
    cases l' with
    | nil => exact absurd ((hmem a).mp List.mem_cons_self) List.not_mem_nil
    | cons b rest' =>
      obtain ⟨hfirst, hrest⟩ := List.pairwise_cons.mp hl
      obtain ⟨hfirst', hrest'⟩ := List.pairwise_cons.mp hl'
      have hba : b.NotAfter a := by
        rcases List.mem_cons.mp ((hmem a).mp List.mem_cons_self) with rfl | ha
        · exact .of_text_eq rfl
        · exact hfirst' a ha
      have hab : a.NotAfter b := by
        rcases List.mem_cons.mp ((hmem b).mpr List.mem_cons_self) with rfl | hb
        · exact .of_text_eq rfl
        · exact hfirst b hb
      have htext : b.text = a.text := hba.text_eq hab
      have hsame := h a.text
      rw [List.filter_cons_of_pos (by simp), List.filter_cons_of_pos (by simp [htext])] at hsame
      obtain rfl : a = b := List.head_eq_of_cons_eq hsame
      have hsame := List.tail_eq_of_cons_eq hsame
      have hrests : ∀ t, rest.filter (·.text = t) = rest'.filter (·.text = t) := by
        intro t
        by_cases ht : a.text = t
        · rw [← ht]
          exact hsame
        · have hother := h t
          rwa [List.filter_cons_of_neg (by simp [ht]), List.filter_cons_of_neg (by simp [ht])]
            at hother
      refine congrArg (a :: ·) (ih hrest hrest' hrests fun c => ?_)
      have hc := congrArg (c ∈ ·) (hrests c.text)
      simpa [List.mem_filter] using hc

/-! ## Sorting -/

section Sorting
variable (options : List Choice)

theorem perm_sort : (sort options).Perm options := List.mergeSort_perm _ _

theorem pairwise_sort : (sort options).Pairwise NotAfter := by
  unfold sort
  refine List.pairwise_mergeSort ?_ notAfter_total options
  intro a b c h h'
  exact NotAfter.trans h h'

/-- Options with the same text keep their order. -/
theorem filter_sort (t : String) :
    (sort options).filter (·.text = t) = options.filter (·.text = t) := by
  have hsame : (options.filter (·.text = t)).Pairwise NotAfter := by
    refine List.pairwise_of_forall_mem_list fun a ha b hb => .of_text_eq ?_
    have ha := of_decide_eq_true (List.mem_filter.mp ha).2
    have hb := of_decide_eq_true (List.mem_filter.mp hb).2
    exact ha.trans hb.symm
  have hsub : (options.filter (·.text = t)).Sublist (sort options) := by
    unfold sort
    refine List.sublist_mergeSort ?_ notAfter_total hsame List.filter_sublist
    intro a b c h h'
    exact NotAfter.trans h h'
  -- Sorting adds no option, so the options of this text are all in this sublist.
  have hsub' := hsub.filter (·.text = t)
  rw [List.filter_filter] at hsub'
  simp only [Bool.and_self] at hsub'
  exact (hsub'.eq_of_length ((perm_sort options).filter _).length_eq.symm).symm

/-- A list is the sorted one just when it has the same options, neighbours are in order, and options
with the same text stand in the order that they had. -/
theorem eq_sort_iff {sorted : List Choice} :
    sorted = sort options ↔
      sorted.Perm options ∧ sorted.IsChain NotAfter ∧
        ∀ t, sorted.filter (·.text = t) = options.filter (·.text = t) := by
  constructor
  · rintro rfl
    exact ⟨perm_sort options, (pairwise_sort options).isChain, filter_sort options⟩
  · rintro ⟨-, hchain, htexts⟩
    have hpairwise := List.isChain_iff_pairwise.mp hchain
    exact eq_of_sorted hpairwise (pairwise_sort options) fun t =>
      (htexts t).trans (filter_sort options t).symm

/-- Sorting depends on nothing but the options and the order of those with the same text. -/
theorem sort_eq_sort_iff (others : List Choice) :
    sort options = sort others ↔
      options.Perm others ∧ ∀ t, options.filter (·.text = t) = others.filter (·.text = t) := by
  constructor
  · intro h
    refine ⟨(perm_sort options).symm.trans (h ▸ perm_sort others), fun t => ?_⟩
    rw [← filter_sort options, h, filter_sort others]
  · rintro ⟨-, htexts⟩
    exact eq_of_sorted (pairwise_sort options) (pairwise_sort others) fun t => by
      rw [filter_sort, filter_sort, htexts]

/-- Options whose texts differ in case only stand together. -/
theorem filter_lower_infix (w : String) :
    (sort options).filter (Letter.lowerText ·.text = w) <:+: sort options :=
  filter_infix ((pairwise_sort options).imp Ordering.isLE_left_of_isLE_then)

theorem sort_sort : sort (sort options) = sort options :=
  List.mergeSort_of_pairwise (pairwise_sort options)

/-- **Sorting is a stable sort by text, and there is only one.** The sorted list has the options
that there were, neighbours stand in the order of their texts, and options with the same text in the
order that they had; any other list of which this is true is the same. Options whose texts are the
same in lower case stand next to each other, and sorting again changes nothing. Two lists are sorted
to the same list just when they have the same options and, for each text, have them in the same
order. -/
theorem sort_stable_and_unique :
    (∀ sorted, sorted = sort options ↔
      sorted.Perm options ∧ sorted.IsChain (fun a b => compareText a.text b.text ≠ .gt) ∧
        ∀ t, sorted.filter (·.text = t) = options.filter (·.text = t)) ∧
    (∀ w, (sort options).filter (Letter.lowerText ·.text = w) <:+: sort options) ∧
    sort (sort options) = sort options ∧
    ∀ others, sort options = sort others ↔
      options.Perm others ∧ ∀ t, options.filter (·.text = t) = others.filter (·.text = t) := by
  have horder : (fun a b : Choice => compareText a.text b.text ≠ .gt) = NotAfter := by
    funext a b
    exact propext Ordering.isLE_iff_ne_gt.symm
  rw [horder]
  exact ⟨fun _ => eq_sort_iff options, filter_lower_infix options, sort_sort options,
    sort_eq_sort_iff options⟩

end Sorting

end DepositForm.Choice
