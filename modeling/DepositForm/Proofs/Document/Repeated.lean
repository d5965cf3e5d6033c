import DepositForm.Proofs.Document.Canonical
import Mathlib.Data.List.Forall2
import Mathlib.Data.List.Induction

/-! # Keys that are repeated

Where a key may be given more than once, the entries stand for fewer: each key once, where it was
given first, and with what it was given last (`lastGiven`). A reader that takes the entries one
after another, and puts each in its place, ends with the same, because one more entry changes what
they stand for just as it is put in (`lastGiven_concat`).
-/
namespace DepositForm

variable {α β : Type}

/-- What entries stand for: each key once, in the order of their first places, and each with the
value that it was given last. -/
def lastGiven (entries : List (String × α)) : List (String × α) :=
  (entries.map Prod.fst).eraseDups.filterMap fun key =>
    (entries.reverse.lookup key).map (key, ·)

/-! ## The keys -/

theorem eraseDups_concat (keys : List String) (key : String) :
    (keys ++ [key]).eraseDups =
      if key ∈ keys then keys.eraseDups else keys.eraseDups ++ [key] := by
  rw [List.eraseDups_append]
  by_cases h : key ∈ keys
  · simp [List.removeAll, h]
  · simp [List.removeAll, h, List.eraseDups_cons]

theorem nodup_eraseDups (keys : List String) : keys.eraseDups.Nodup := by
  induction keys using List.reverseRecOn with
  | nil => simp
  | append_singleton keys key ih =>
    rw [eraseDups_concat]
    split
    · exact ih
    · refine List.nodup_append.mpr ⟨ih, by simp, ?_⟩
      rintro k hk _ hkey rfl
      rw [List.mem_singleton.mp hkey, List.mem_eraseDups] at hk
      exact ‹key ∉ keys› hk

/-- Only a key that no entry has leads to nothing. -/
theorem lookup_eq_none {entries : List (String × α)} {key : String} :
    entries.lookup key = none ↔ key ∉ entries.map Prod.fst := by
  rw [List.lookup_eq_none_iff]
  constructor
  · intro h hmem
    obtain ⟨e, he, rfl⟩ := List.mem_map.mp hmem
    simpa using h e he
  · intro h e he
    simpa using fun heq : key = e.1 => h (heq ▸ List.mem_map_of_mem he)

theorem lookup_isSome {entries : List (String × α)} {key : String}
    (h : key ∈ entries.map Prod.fst) : ∃ a, entries.lookup key = some a :=
  Option.ne_none_iff_exists'.mp fun hnone => lookup_eq_none.mp hnone h

/-- The keys are those given, each in its first place. -/
theorem keys_lastGiven (entries : List (String × α)) :
    (lastGiven entries).map Prod.fst = (entries.map Prod.fst).eraseDups := by
  have hkey : ∀ key ∈ (entries.map Prod.fst).eraseDups,
      ((entries.reverse.lookup key).map (key, ·)).map Prod.fst = some key := by
    intro key hkey
    obtain ⟨a, ha⟩ : ∃ a, entries.reverse.lookup key = some a := lookup_isSome (by simpa using hkey)
    rw [ha]
    rfl
  rw [lastGiven, List.map_filterMap, List.filterMap_congr hkey, List.filterMap_some]

theorem nodup_keys_lastGiven (entries : List (String × α)) :
    ((lastGiven entries).map Prod.fst).Nodup := by
  rw [keys_lastGiven]
  exact nodup_eraseDups _

/-- What entries stand for begins with the key that they begin with. -/
theorem head?_keys_lastGiven (entries : List (String × α)) :
    ((lastGiven entries).map Prod.fst).head? = (entries.map Prod.fst).head? := by
  rw [keys_lastGiven]
  cases entries with
  | nil => rfl
  | cons e rest => rw [List.map_cons, List.eraseDups_cons]; rfl

/-! ## One entry after the other -/

namespace Node

/-- Where a key is there already, its entry is exchanged. -/
theorem put_of_mem {key : String} {n : Node} {entries : List (String × Node)}
    (h : key ∈ entries.map Prod.fst) (hdistinct : (entries.map Prod.fst).Nodup) :
    put key n entries = entries.map fun e => if e.1 = key then (key, n) else e := by
  induction entries with
  | nil => cases h
  | cons e rest ih =>
    rw [List.map_cons, List.nodup_cons] at hdistinct
    rw [put, List.map_cons]
    by_cases he : e.1 = key
    · -- No later entry has the key, so all of them stay.
      have hrest : ∀ e' ∈ rest, (if e'.1 = key then (key, n) else e') = e' := by
        intro e' he'
        refine if_neg fun hsame => hdistinct.1 ?_
        rw [he, ← hsame]
        exact List.mem_map_of_mem he'
      rw [if_pos he, if_pos he, List.map_congr_left hrest, List.map_id'', he]
      exact fun _ => rfl
    · have hmem := (List.mem_cons.mp h).resolve_left (Ne.symm he)
      rw [if_neg he, if_neg he, ih hmem hdistinct.2]

/-- What entries that follow add to those read so far. -/
abbrev putAll (soFar entries : List (String × Node)) : List (String × Node) :=
  entries.foldl (fun soFar e => put e.1 e.2 soFar) soFar

end Node

/-- **One more entry is put into what the others stand for.** -/
theorem lastGiven_concat (entries : List (String × Node)) (key : String) (n : Node) :
    lastGiven (entries ++ [(key, n)]) = Node.put key n (lastGiven entries) := by
  have hlookup : ∀ k, (entries ++ [(key, n)]).reverse.lookup k =
      if k = key then some n else entries.reverse.lookup k := by
    intro k
    rw [List.reverse_append, List.reverse_singleton, List.singleton_append, List.lookup_cons]
    by_cases hk : k = key
    · simp [hk]
    · simp [beq_false_of_ne hk, hk]
  have hkeys := keys_lastGiven entries
  rw [lastGiven, List.map_append, List.map_singleton, eraseDups_concat]
  simp only [hlookup]
  by_cases h : key ∈ entries.map Prod.fst
  · have hmem : key ∈ (lastGiven entries).map Prod.fst := by rwa [hkeys, List.mem_eraseDups]
    rw [if_pos h, Node.put_of_mem hmem (nodup_keys_lastGiven entries), lastGiven,
      List.map_filterMap]
    refine List.filterMap_congr fun k hk => ?_
    obtain ⟨a, ha⟩ : ∃ a, entries.reverse.lookup k = some a :=
      lookup_isSome (by simpa using List.mem_eraseDups.mp hk)
    rw [ha]
    by_cases hkey : k = key <;> simp [hkey]
  · have hnew : key ∉ (lastGiven entries).map Prod.fst := by rwa [hkeys, List.mem_eraseDups]
    rw [if_neg h, Node.put_of_not_mem hnew, List.filterMap_append, lastGiven]
    -- The key is new, so the others are looked up as before.
    have hothers : ∀ k ∈ (entries.map Prod.fst).eraseDups,
        ((if k = key then some n else entries.reverse.lookup k).map (k, ·)) =
          (entries.reverse.lookup k).map (k, ·) := by
      intro k hk
      rw [if_neg]
      rintro rfl
      exact h (List.mem_eraseDups.mp hk)
    rw [List.filterMap_congr hothers]
    simp

/-- **Entries that are taken one after the other come to what they stand for.** -/
theorem putAll_nil (entries : List (String × Node)) :
    Node.putAll [] entries = lastGiven entries := by
  induction entries using List.reverseRecOn with
  | nil => rfl
  | append_singleton entries e ih =>
    unfold Node.putAll at ih ⊢
    rw [List.foldl_append, ih]
    exact (lastGiven_concat entries e.1 e.2).symm

/-! ## Entries that correspond -/

section Correspond
variable {R : α → β → Prop} {entries : List (String × α)} {others : List (String × β)}

/-- Entries that have the same keys one by one, and values that are related. -/
abbrev Correspond (R : α → β → Prop) : List (String × α) → List (String × β) → Prop :=
  List.Forall₂ fun e f => e.1 = f.1 ∧ R e.2 f.2

theorem Correspond.keys (h : Correspond R entries others) :
    entries.map Prod.fst = others.map Prod.fst := by
  induction h with
  | nil => rfl
  | cons he _ ih => rw [List.map_cons, List.map_cons, he.1, ih]

theorem Correspond.lookup (h : Correspond R entries others) (key : String) :
    Option.Rel R (entries.lookup key) (others.lookup key) := by
  induction h with
  | nil => exact .none
  | @cons e f _ _ he _ ih =>
    rw [List.lookup_cons, List.lookup_cons, ← he.1]
    by_cases hkey : key = e.1
    · simpa [hkey] using Option.Rel.some he.2
    · simpa [beq_false_of_ne hkey] using ih

/-- What such entries stand for corresponds as well. -/
theorem correspond_lastGiven (h : Correspond R entries others) :
    Correspond R (lastGiven entries) (lastGiven others) := by
  have hkey : Relator.LiftFun Eq (Option.Rel fun e f => e.1 = f.1 ∧ R e.2 f.2)
      (fun key => (entries.reverse.lookup key).map (key, ·))
      (fun key => (others.reverse.lookup key).map (key, ·)) := by
    rintro key _ rfl
    have hlookup := Correspond.lookup (List.forall₂_reverse_iff.mpr h) key
    dsimp only
    generalize entries.reverse.lookup key = a, others.reverse.lookup key = b at hlookup
    cases hlookup with
    | none => exact .none
    | some hvalue => exact .some ⟨rfl, hvalue⟩
  rw [lastGiven, lastGiven, ← h.keys]
  exact List.rel_filterMap hkey (List.forall₂_refl _)

end Correspond

end DepositForm
