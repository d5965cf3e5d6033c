import DepositForm.Letter.Case
import Mathlib

/-! # Upper case of upper case

A text that has been capitalised begins with a character that is its own upper case. Nothing in
the look-up makes it so, the tables do: no code point that an upper-case form is made of has an
upper-case form of its own. The two sets of code points are written out from the tables
(`formCodes`, `listedCodes`) and compared as the bits of two numbers, whose common bits are none.
-/
namespace DepositForm.Letter

/-! ## Sets of code points -/

/-- The number whose bits that are set stand at `codes`. Two sets have nothing in common if their
numbers have no bit in common, which is one operation and not a comparison of each with each. -/
def codeSet (codes : List Nat) : Nat := codes.foldr (fun code set => set ||| 1 <<< code) 0

theorem testBit_codeSet (codes : List Nat) (code : Nat) :
    (codeSet codes).testBit code = true ↔ code ∈ codes := by
  induction codes with
  | nil => simp [codeSet]
  | cons first rest ih =>
    have one : (1 <<< first).testBit code = true ↔ code = first := by
      rw [Nat.one_shiftLeft, Nat.testBit_two_pow, decide_eq_true_iff, eq_comm]
    rw [codeSet, List.foldr_cons, ← codeSet, Nat.testBit_or, Bool.or_eq_true, ih, one,
      List.mem_cons, or_comm]

theorem not_mem_of_codeSet {xs ys : List Nat} (h : codeSet xs &&& codeSet ys = 0) {code : Nat}
    (hx : code ∈ xs) : code ∉ ys := by
  intro hy
  have common : (codeSet xs &&& codeSet ys).testBit code = true := by
    rw [Nat.testBit_and, (testBit_codeSet xs code).mpr hx, (testBit_codeSet ys code).mpr hy]
    rfl
  rw [h, Nat.zero_testBit] at common
  contradiction

/-- The code points a run maps. -/
def Run.codes (r : Run) : List Nat :=
  List.range' r.first ((r.last - r.first) / r.step + 1) r.step

/-- The code points a run leads to. -/
def Run.targets (r : Run) : List Nat :=
  List.range' r.target ((r.last - r.first) / r.step + 1) r.step

theorem Run.mem_of_map? {r : Run} {code target : Nat} (h : r.map? code = some target) :
    code ∈ r.codes ∧ target ∈ r.targets := by
  unfold Run.map? at h
  split at h
  · rename_i inside
    obtain ⟨hfirst, hlast, hstep⟩ := inside
    have counted : r.step * ((code - r.first) / r.step) = code - r.first :=
      Nat.mul_div_cancel' (Nat.dvd_of_mod_eq_zero hstep)
    have within : (code - r.first) / r.step < (r.last - r.first) / r.step + 1 :=
      Nat.lt_succ_of_le (Nat.div_le_div_right (Nat.sub_le_sub_right hlast _))
    constructor
    · exact List.mem_range'.mpr ⟨_, within, by rw [counted]; omega⟩
    · exact List.mem_range'.mpr ⟨_, within, by rw [counted]; exact (Option.some.inj h).symm⟩
  · contradiction

/-! ## What the tables list -/

/-- The code points that have an upper-case form other than themselves. -/
def listedCodes : List Nat := upperRuns.flatMap Run.codes ++ upperLong.map Prod.fst

/-- The code points these forms are made of. -/
def formCodes : List Nat := upperRuns.flatMap Run.targets ++ upperLong.flatMap Prod.snd

/-- No form is made of a code point that has a form of its own: the two numbers are computed, and
no bit is set in both. -/
theorem formCodes_unlisted {code : Nat} (h : code ∈ formCodes) : code ∉ listedCodes :=
  not_mem_of_codeSet (by decide +kernel) h

theorem formCodes_valid : ∀ code ∈ formCodes, code.isValidChar := by
  decide +kernel

theorem upperLong_not_empty : ∀ entry ∈ upperLong, entry.2 ≠ [] := by
  decide +kernel

/-! ## Upper-case forms -/

/-- A form is either the character itself or made of one or more of `formCodes`. -/
theorem upper_cases (c : Char) :
    upper c = [c] ∨
      ∃ codes, codes ≠ [] ∧ (∀ code ∈ codes, code ∈ formCodes) ∧
        upper c = codes.map Char.ofNat := by
  cases hlist : upperLong.lookup c.toNat with
  | some codes =>
    obtain ⟨before, after, hentry, -⟩ := List.lookup_eq_some_iff.mp hlist
    have listed : (c.toNat, codes) ∈ upperLong := by simp [hentry]
    refine .inr ⟨codes, upperLong_not_empty _ listed, fun code hcode => ?_, by rw [upper, hlist]⟩
    exact List.mem_append_right _ (List.mem_flatMap.mpr ⟨_, listed, hcode⟩)
  | none =>
    cases hrun : upperRuns.findSome? (·.map? c.toNat) with
    | none => exact .inl (by rw [upper, hlist, hrun])
    | some target =>
      obtain ⟨r, hr, hmap⟩ := List.exists_of_findSome?_eq_some hrun
      have reached : target ∈ formCodes :=
        List.mem_append_left _ (List.mem_flatMap.mpr ⟨r, hr, (Run.mem_of_map? hmap).2⟩)
      exact .inr ⟨[target], List.cons_ne_nil _ _, by simpa using reached,
        by rw [upper, hlist, hrun]; rfl⟩

theorem upper_of_unlisted {c : Char} (h : c.toNat ∉ listedCodes) : upper c = [c] := by
  have absent : upperLong.lookup c.toNat = none := by
    refine List.lookup_eq_none_iff.mpr fun entry hentry => bne_iff_ne.mpr fun heq => h ?_
    exact List.mem_append_right _ (List.mem_map.mpr ⟨entry, hentry, heq.symm⟩)
  have unmapped : upperRuns.findSome? (·.map? c.toNat) = none := by
    refine List.findSome?_eq_none_iff.mpr fun r hr => ?_
    cases hmap : r.map? c.toNat with
    | none => rfl
    | some target =>
      have mapped := (Run.mem_of_map? hmap).1
      exact absurd (List.mem_append_left _ (List.mem_flatMap.mpr ⟨r, hr, mapped⟩)) h
  rw [upper, absent, unmapped]

theorem upper_ne_nil (c : Char) : upper c ≠ [] := by
  obtain h | ⟨codes, hne, -, h⟩ := upper_cases c
  · rw [h]
    exact List.cons_ne_nil _ _
  · rw [h]
    exact mt List.map_eq_nil_iff.mp hne

/-- **Every character of an upper-case form is its own upper case.** -/
theorem upper_of_mem_upper {c d : Char} (hd : d ∈ upper c) : upper d = [d] := by
  obtain h | ⟨codes, -, hcodes, h⟩ := upper_cases c
  · rw [h] at hd
    rw [List.mem_singleton.mp hd, h]
  · rw [h] at hd
    obtain ⟨code, hcode, rfl⟩ := List.mem_map.mp hd
    have made := hcodes code hcode
    apply upper_of_unlisted
    rw [Char.toNat_ofNat, if_pos (formCodes_valid code made)]
    exact formCodes_unlisted made

/-! ## Capitalised texts -/

theorem toList_capitalize (s : String) :
    (capitalize s).toList = (s.toList.take 1).flatMap upper ++ s.toList.tail := by
  unfold capitalize
  split <;> rename_i hs <;> simp [hs]

/-- A text that begins with a character in upper case is left as it is. -/
theorem capitalize_of_upper {s : String} {c : Char} {rest : List Char} (hs : s.toList = c :: rest)
    (hc : upper c = [c]) : capitalize s = s := by
  apply String.toList_injective
  rw [toList_capitalize, hs]
  simp [hc]

/-- **Capitalising is stable.** It puts the upper-case form of the first character, of however
many characters, in its place and keeps all that follows; done again it changes nothing. -/
theorem capitalize_stable (s : String) :
    (capitalize s).toList = (s.toList.take 1).flatMap upper ++ s.toList.tail ∧
      capitalize (capitalize s) = capitalize s := by
  refine ⟨toList_capitalize s, ?_⟩
  cases hs : s.toList with
  | nil =>
    have empty : capitalize s = "" := by rw [capitalize, hs]
    rw [empty]
    rfl
  | cons c rest =>
    obtain ⟨d, more, hform⟩ := List.exists_cons_of_ne_nil (upper_ne_nil c)
    have begins : (capitalize s).toList = d :: (more ++ rest) := by
      rw [toList_capitalize, hs]
      simp [hform]
    exact capitalize_of_upper begins (upper_of_mem_upper (hform ▸ List.mem_cons_self))

example : capitalize "ßen" = "SSen" ∧ capitalize "SSen" = "SSen" := by decide +kernel

end DepositForm.Letter
