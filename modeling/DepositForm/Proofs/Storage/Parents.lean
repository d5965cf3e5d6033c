import DepositForm.Proofs.Storage.Straight

/-! # The directories that a path leads through

A path is taken apart into components, and each directory that it leads through is told as a path
again, put together from some components at the front. What such a path is, is settled by how a text
is cut at its slashes: the pieces of a text that has been put together are the ones it was put
together from (`split_intercalate`). So the path of such a directory starts where the whole path
starts, and the names that count in it are some, but never all, of those in the whole path
(`leadsThrough_of_mem_ancestors`).
-/
namespace DepositForm

open Disk (namesOf counted)

namespace Path

/-! ## Cut and put together -/

theorem split_of_not_mem {cs : List Char} (h : '/' ∉ cs) : split cs = [cs] := by
  induction cs with
  | nil => rfl
  | cons c rest ih =>
    obtain ⟨hc, hrest⟩ := not_or.mp (mt List.mem_cons.mpr h)
    rw [split, if_neg (Ne.symm hc), ih hrest]

theorem split_ne_nil (cs : List Char) : split cs ≠ [] := by
  cases cs with
  | nil => exact List.cons_ne_nil _ _
  | cons c rest =>
    rw [split]
    split
    · exact List.cons_ne_nil _ _
    · split
      · exact List.cons_ne_nil _ _
      · exact List.cons_ne_nil _ _

/-- A text is cut at every slash, wherever it stands. -/
theorem split_append (front rest : List Char) :
    split (front ++ '/' :: rest) = split front ++ split rest := by
  induction front with
  | nil => rfl
  | cons c front ih =>
    rw [List.cons_append, split, split, ih]
    split
    · rfl
    · obtain ⟨piece, pieces, hpieces⟩ := List.exists_cons_of_ne_nil (split_ne_nil front)
      rw [hpieces]
      rfl

theorem split_intercalate {pieces : List (List Char)} (hne : pieces ≠ [])
    (h : ∀ piece ∈ pieces, '/' ∉ piece) : split (['/'].intercalate pieces) = pieces := by
  induction pieces with
  | nil => exact absurd rfl hne
  | cons piece rest ih =>
    obtain ⟨hpiece, hrest⟩ := List.forall_mem_cons.mp h
    cases rest with
    | nil => rw [List.intercalate_singleton, split_of_not_mem hpiece]
    | cons second rest =>
      rw [List.intercalate_cons_cons, List.append_assoc, List.singleton_append,
        split_append, split_of_not_mem hpiece, ih (by simp) hrest, List.singleton_append]

theorem not_mem_of_mem_split {cs piece : List Char} (h : piece ∈ split cs) : '/' ∉ piece := by
  induction cs generalizing piece with
  | nil =>
    rw [List.mem_singleton.mp h]
    exact List.not_mem_nil
  | cons c rest ih =>
    rw [split] at h
    by_cases hc : c = '/'
    · rw [if_pos hc] at h
      rcases List.mem_cons.mp h with rfl | h
      · exact List.not_mem_nil
      · exact ih h
    rw [if_neg hc] at h
    cases hrest : split rest with
    | nil =>
      rw [hrest] at h
      rw [List.mem_singleton.mp h]
      simpa using Ne.symm hc
    | cons first others =>
      rw [hrest] at h ih
      rcases List.mem_cons.mp h with rfl | h
      · have hfirst := ih List.mem_cons_self
        simpa [Ne.symm hc] using hfirst
      · exact ih (List.mem_cons_of_mem _ h)

/-! ## Components -/

/-- The name that a component is in a walk, if it counts. -/
def Component.counted? : Component → Option String
  | root | here => none
  | up => some ".."
  | name s => some s

/-- A component that a path can have. -/
def Component.Sound : Component → Prop
  | root | here | up => True
  | name s => s ≠ "" ∧ s ≠ "." ∧ '/' ∉ s.toList

theorem Component.Sound.not_mem {c : Component} (h : c.Sound) : '/' ∉ c.text.toList := by
  cases c with
  | name s => exact h.2.2
  | root | here | up => decide

theorem Component.Sound.counted_text {c : Component} (h : c.Sound) (names : List String) :
    counted (c.text :: names) = c.counted?.toList ++ counted names := by
  cases c with
  | name s => exact List.filter_cons_of_pos (by simp [Component.text, h.1, h.2.1])
  | root | here | up => rfl

theorem component?_eq_some {piece : String} {c : Component} (h : component? piece = some c) :
    c.text = piece ∧ c.counted? = some piece ∧ c ≠ .root := by
  unfold component? at h
  split at h
  · cases h
  split at h
  · rename_i hup
    cases h
    exact ⟨hup.symm, congrArg some hup.symm, by simp⟩
  · cases h
    exact ⟨rfl, rfl, by simp⟩

variable {p : Path}

/-- At the front of a path there may be one component that does not count; all others do. -/
theorem components_eq (p : Path) :
    ∃ front : List Component, p.components = front ++ p.pieces.filterMap component? ∧
      (p.isAbsolute = true ∧ front = [.root] ∨
        p.isAbsolute = false ∧ (front = [.here] ∨ front = [])) := by
  refine ⟨_, rfl, ?_⟩
  cases p.isAbsolute with
  | true => exact .inl ⟨rfl, rfl⟩
  | false =>
    refine .inr ⟨rfl, ?_⟩
    rw [if_neg Bool.false_ne_true]
    by_cases hhere : p.pieces.head? = some "."
    · exact .inl (if_pos hhere)
    · exact .inr (if_neg hhere)

theorem isAbsolute_iff {c : Component} {rest : List Component} (h : p.components = c :: rest) :
    p.isAbsolute = true ↔ c = .root := by
  obtain ⟨front, hcomponents, ⟨habsolute, rfl⟩ | ⟨hrelative, hfront⟩⟩ := p.components_eq
  · rw [h] at hcomponents
    exact iff_of_true habsolute (List.head_eq_of_cons_eq hcomponents)
  refine iff_of_false (by simp [hrelative]) ?_
  rintro rfl
  rw [h] at hcomponents
  rcases hfront with rfl | rfl
  · cases hcomponents
  · -- A component that stands for a piece is not the root.
    have hmem : Component.root ∈ p.pieces.filterMap component? := by
      rw [List.nil_append] at hcomponents
      exact hcomponents ▸ List.mem_cons_self
    obtain ⟨piece, -, hroot⟩ := List.mem_filterMap.mp hmem
    exact (component?_eq_some hroot).2.2 rfl

theorem sound_of_mem_components {c : Component} (h : c ∈ p.components) : c.Sound := by
  obtain ⟨front, hcomponents, hfront⟩ := p.components_eq
  rw [hcomponents, List.mem_append] at h
  rcases h with h | h
  · rcases hfront with ⟨-, rfl⟩ | ⟨-, rfl | rfl⟩
    · rw [List.mem_singleton.mp h]
      trivial
    · rw [List.mem_singleton.mp h]
      trivial
    · cases h
  · obtain ⟨piece, hpiece, hc⟩ := List.mem_filterMap.mp h
    obtain ⟨cs, hcs, rfl⟩ := List.mem_map.mp hpiece
    cases c with
    | name s =>
      obtain ⟨rfl, -, -⟩ := component?_eq_some hc
      have hname : ¬ (String.ofList cs = "" ∨ String.ofList cs = ".") := by
        intro hskip
        rw [component?, if_pos hskip] at hc
        cases hc
      rw [not_or] at hname
      refine ⟨hname.1, hname.2, ?_⟩
      rw [String.toList_ofList]
      exact not_mem_of_mem_split hcs
    | root | here | up => trivial

theorem counted?_of_mem_tail {c : Component} (h : c ∈ p.components.tail) :
    ∃ name, c.counted? = some name := by
  obtain ⟨front, hcomponents, hfront⟩ := p.components_eq
  have hmem : c ∈ p.pieces.filterMap component? := by
    rw [hcomponents] at h
    rcases hfront with ⟨-, rfl⟩ | ⟨-, rfl | rfl⟩
    · exact h
    · exact h
    · exact List.mem_of_mem_tail h
  obtain ⟨piece, -, hc⟩ := List.mem_filterMap.mp hmem
  exact ⟨piece, (component?_eq_some hc).2.1⟩

theorem counted_pieces {pieces : List String} {components : List Component}
    (h : pieces = components.map Component.text) (hsound : ∀ c ∈ components, c.Sound) :
    counted pieces = components.filterMap Component.counted? := by
  subst h
  induction components with
  | nil => rfl
  | cons c rest ih =>
    obtain ⟨hc, hrest⟩ := List.forall_mem_cons.mp hsound
    rw [List.map_cons, hc.counted_text, ih hrest]
    cases hcounted : c.counted? with
    | none => rw [List.filterMap_cons_none hcounted]; rfl
    | some name => rw [List.filterMap_cons_some hcounted]; rfl

/-- A slash at the end adds no name that counts, and neither do empty pieces. -/
theorem counted_namesOf_eq (p : Path) : counted (namesOf p) = counted p.pieces := by
  have hempty : ∀ pieces : List String, counted (pieces.filter (· ≠ "")) = counted pieces := by
    intro pieces
    unfold counted
    rw [List.filter_filter]
    refine List.filter_congr fun name _ => ?_
    by_cases hname : name = "" <;> simp [hname]
  unfold namesOf
  dsimp only
  split
  · exact (List.filter_append _ _).trans ((List.append_nil _).trans (hempty _))
  · exact hempty _

/-- The names that count in a path are those of its components. -/
theorem counted_namesOf (p : Path) :
    counted (namesOf p) = p.components.filterMap Component.counted? := by
  obtain ⟨front, hcomponents, hfront⟩ := p.components_eq
  have hnone : front.filterMap Component.counted? = [] := by
    rcases hfront with ⟨-, rfl⟩ | ⟨-, rfl | rfl⟩ <;> rfl
  rw [counted_namesOf_eq, hcomponents, List.filterMap_append, hnone, List.nil_append]
  induction p.pieces with
  | nil => rfl
  | cons piece rest ih =>
    by_cases hskip : piece = "" ∨ piece = "."
    · have hcomponent : component? piece = none := if_pos hskip
      rw [Disk.counted_skip hskip, ih, List.filterMap_cons_none hcomponent]
    · obtain ⟨c, hc⟩ : ∃ c, component? piece = some c := by
        by_cases hup : piece = ".."
        · exact ⟨.up, by rw [component?, if_neg hskip, if_pos hup]⟩
        · exact ⟨.name piece, by rw [component?, if_neg hskip, if_neg hup]⟩
      rw [List.filterMap_cons_some hc, List.filterMap_cons_some (component?_eq_some hc).2.1, ← ih]
      exact List.filter_cons_of_pos (by simpa [not_or] using hskip)

/-! ## Paths of some components -/

section Front
variable {c : Component} {rest : List Component}

theorem pieces_ofComponents (hroot : c :: rest ≠ [.root]) (hsound : ∀ x ∈ c :: rest, x.Sound) :
    (ofComponents (c :: rest)).pieces = (c :: rest).map Component.text := by
  have hslash : "/".toList = ['/'] := rfl
  have hsplit : split (['/'].intercalate (((c :: rest).map Component.text).map String.toList)) =
      ((c :: rest).map Component.text).map String.toList := by
    refine split_intercalate (by simp) ?_
    rw [List.map_map]
    exact List.forall_mem_map.mpr fun x hx => (hsound x hx).not_mem
  rw [pieces, ofComponents, if_neg hroot, String.toList_intercalate, hslash, hsplit]
  simp [Function.comp_def]

/-- Only a path that begins at the root has no name in front of its first slash. -/
theorem isAbsolute_ofComponents (hroot : c :: rest ≠ [.root]) (hsound : c.Sound) :
    (ofComponents (c :: rest)).isAbsolute = true ↔ c = .root := by
  rw [isAbsolute, ofComponents, if_neg hroot, decide_eq_true_eq, List.map_cons]
  by_cases hc : c = .root
  · subst hc
    obtain ⟨second, others, rfl⟩ := List.exists_cons_of_ne_nil fun h => hroot (h ▸ rfl)
    simp [String.intercalate_cons_cons, Component.text]
  refine iff_of_false (fun hslash => hsound.not_mem ?_) hc
  obtain ⟨first, others, htext⟩ : ∃ first others, c.text.toList = first :: others := by
    refine List.exists_cons_of_ne_nil fun h => ?_
    cases c with
    | root => exact hc rfl
    | name s => exact hsound.1 (String.toList_eq_nil_iff.mp h)
    | here | up => exact absurd h (by decide)
  have hhead : ("/".intercalate (c.text :: rest.map Component.text)).toList.head? = some first := by
    cases rest with
    | nil => simp [htext]
    | cons => simp [String.intercalate_cons_cons, htext]
  rw [hhead] at hslash
  rw [htext, Option.some.inj hslash]
  exact List.mem_cons_self

end Front

/-! ## The directories on the way -/

/-- A path leads through a directory that is told by another path: that one starts where it starts,
and has some of its names, but not all. -/
structure LeadsThrough (p dir : Path) : Prop where
  start : dir.isAbsolute = p.isAbsolute
  names : ∃ rest, rest ≠ [] ∧ counted (namesOf p) = counted (namesOf dir) ++ rest

/-- What a directory is put together from: some components at the front of the path, without the
last one, and not the root alone. -/
theorem exists_take_of_mem_ancestors {components : List Component}
    (h : p.parentComponents? = some components) {dir : Path} (hdir : dir ∈ ancestors components) :
    ∃ n, n + 1 < p.components.length ∧ p.components.take (n + 1) ≠ [.root] ∧
      dir = ofComponents (p.components.take (n + 1)) := by
  have hparent : components = p.components.dropLast := by
    unfold parentComponents? at h
    split at h
    · cases h
    · cases h
    · exact (Option.some.inj h).symm
  obtain ⟨n, hn, hfront⟩ := List.mem_filterMap.mp hdir
  rw [List.mem_reverse, List.mem_range, hparent, List.length_dropLast] at hn
  have htake : components.take (n + 1) = p.components.take (n + 1) := by
    rw [hparent, List.dropLast_eq_take, List.take_take, Nat.min_eq_left (by omega)]
  dsimp only at hfront
  rw [htake] at hfront
  split at hfront
  · cases hfront
  · exact ⟨n, by omega, ‹_›, (Option.some.inj hfront).symm⟩

/-- Components behind the first one bring names that count. -/
theorem counted_drop_ne_nil {c : Component} {rest : List Component}
    (h : p.components = c :: rest) {n : Nat} (hn : n < rest.length) :
    (rest.drop n).filterMap Component.counted? ≠ [] := by
  have htail : rest[n] ∈ p.components.tail := h ▸ List.getElem_mem hn
  obtain ⟨name, hname⟩ := counted?_of_mem_tail htail
  have hmem : name ∈ (rest.drop n).filterMap Component.counted? :=
    List.mem_filterMap.mpr ⟨rest[n], List.mem_drop_iff_getElem.mpr ⟨0, by omega, rfl⟩, hname⟩
  exact List.ne_nil_of_mem hmem

/-- **The paths of directories above a path lead to directories on its way.** -/
theorem leadsThrough_of_mem_ancestors {components : List Component}
    (h : p.parentComponents? = some components) {dir : Path} (hdir : dir ∈ ancestors components) :
    p.LeadsThrough dir := by
  obtain ⟨n, hn, hroot, rfl⟩ := exists_take_of_mem_ancestors h hdir
  cases hcomponents : p.components with
  | nil =>
    rw [hcomponents] at hn
    exact absurd hn (Nat.not_lt_zero _)
  | cons c rest =>
    rw [hcomponents, List.take_succ_cons] at hroot
    rw [hcomponents, List.length_cons, Nat.succ_lt_succ_iff] at hn
    have hsound : ∀ x ∈ c :: rest, x.Sound := fun x hx =>
      sound_of_mem_components (hcomponents ▸ hx)
    have hsoundFront : ∀ x ∈ c :: rest.take n, x.Sound := by
      intro x hx
      rcases List.mem_cons.mp hx with rfl | hx
      · exact hsound _ List.mem_cons_self
      · exact hsound x (List.mem_cons_of_mem _ (List.mem_of_mem_take hx))
    rw [List.take_succ_cons]
    refine ⟨?_, (rest.drop n).filterMap Component.counted?, counted_drop_ne_nil hcomponents hn, ?_⟩
    · rw [Bool.eq_iff_iff, isAbsolute_iff hcomponents]
      exact isAbsolute_ofComponents hroot (hsound c List.mem_cons_self)
    · rw [counted_namesOf, counted_namesOf_eq, hcomponents,
        counted_pieces (pieces_ofComponents hroot hsoundFront) hsoundFront,
        ← List.filterMap_append, List.cons_append, List.take_append_drop]

end Path
end DepositForm
