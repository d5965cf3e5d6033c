import DepositForm.Proofs.Storage.Parents
import Mathlib.Data.List.TakeWhile

/-! # The last part of a path

A path is taken apart into components, and its name is the last one. What that comes to can be said
of the path as it is written, read from its end: slashes there do not count, and neither do dots
that stand alone behind one; what then stands behind the last slash is the last part, and the
extension is what follows the last dot of it, if anything stands in front of that dot
(`extension?_eq_some`).

The two agree because a piece that does not count can be dropped from the end without a change to
the last one that does (`getLast?_counted`). The induction follows the dropping. Where nothing can
be dropped any more, the piece at the end counts, or there is no other: only a path that is empty
or a single dot ends in a piece that does not count and has no slash in front of it.
-/
namespace DepositForm

open Disk (counted)

namespace Path

/-! ## The end of a path -/

/-- The text without what does not count at its end: slashes, and dots that stand alone behind a
slash. Texts are read from the end, last character first. -/
def dropTail : List Char → List Char
  | '/' :: rest => dropTail rest
  | '.' :: '/' :: rest => dropTail rest
  | cs => cs

/-- What stands behind the last slash of a text that is read from the end. -/
def behindSlash (cs : List Char) : String := String.ofList (cs.takeWhile (· ≠ '/')).reverse

/-- The last component of a path, as it is written. -/
def lastPart (p : Path) : String := behindSlash (dropTail p.text.toList.reverse)

section Cut
variable {x : Char} {back front : List Char}

theorem ne_of_mem_back (h : x ∉ back) : ∀ c ∈ back, decide (c ≠ x) = true := fun _ hc =>
  decide_eq_true fun hcx => h (hcx ▸ hc)

theorem takeWhile_ne (h : x ∉ back) : (back ++ x :: front).takeWhile (· ≠ x) = back := by
  rw [List.takeWhile_append_of_pos (ne_of_mem_back h)]
  simp

theorem dropWhile_ne (h : x ∉ back) : (back ++ x :: front).dropWhile (· ≠ x) = x :: front := by
  rw [List.dropWhile_append_of_pos (ne_of_mem_back h)]
  simp

end Cut

/-- The names in a text that is read from the end. -/
def namesBack (cs : List Char) : List String := (split cs.reverse).map String.ofList

theorem counted_append (front rest : List String) :
    counted (front ++ rest) = counted front ++ counted rest :=
  List.filter_append _ _

/-- The piece at the end of a text is what stands behind its last slash. -/
theorem exists_namesBack_eq (cs : List Char) :
    ∃ others, namesBack cs = others ++ [behindSlash cs] := by
  unfold namesBack behindSlash
  by_cases hslash : '/' ∈ cs
  · obtain ⟨back, front, rfl, hback⟩ := List.eq_append_cons_of_mem hslash
    refine ⟨(split front.reverse).map String.ofList, ?_⟩
    rw [takeWhile_ne hback, List.reverse_append, List.reverse_cons, List.append_assoc,
      List.singleton_append, split_append, split_of_not_mem (mt List.mem_reverse.mp hback),
      List.map_append]
    rfl
  · refine ⟨[], ?_⟩
    rw [List.takeWhile_eq_self_iff.mpr (ne_of_mem_back hslash),
      split_of_not_mem (mt List.mem_reverse.mp hslash)]
    rfl

/-- Where nothing can be dropped from the end, the piece there counts, or there is no other. -/
theorem behindSlash_counts {cs : List Char} (hslash : ∀ rest, cs ≠ '/' :: rest)
    (hdot : ∀ rest, cs ≠ '.' :: '/' :: rest) :
    cs = [] ∨ cs = ['.'] ∨ behindSlash cs ≠ "" ∧ behindSlash cs ≠ "." := by
  cases cs with
  | nil => exact .inl rfl
  | cons c rest =>
    have hc : c ≠ '/' := fun h => hslash rest (by rw [h])
    have hpart : (behindSlash (c :: rest)).toList.reverse = c :: rest.takeWhile (· ≠ '/') := by
      simp [behindSlash, hc]
    refine .inr ?_
    by_cases hone : c :: rest = ['.']
    · exact .inl hone
    refine .inr ⟨fun hempty => ?_, fun hsingle => ?_⟩
    · rw [hempty] at hpart
      cases hpart
    · have hchars : ".".toList.reverse = ['.'] := rfl
      rw [hsingle, hchars] at hpart
      obtain ⟨rfl, hnone⟩ := List.cons.inj hpart
      cases rest with
      | nil => exact hone rfl
      | cons d rest =>
        by_cases hd : d = '/'
        · exact hdot rest (by rw [hd])
        · simp [hd] at hnone

/-- **The last component of a path is the last of its names that count**, if it counts at all. -/
theorem getLast?_counted (cs : List Char) (name : String) :
    (counted (namesBack cs)).getLast? = some name ↔
      behindSlash (dropTail cs) = name ∧ name ≠ "" ∧ name ≠ "." := by
  fun_induction dropTail cs with
  | case1 rest ih =>
    have hnames : namesBack ('/' :: rest) = namesBack rest ++ [""] := by
      simp [namesBack, split_append, split]
    rw [← ih, hnames, counted_append]
    simp [counted]
  | case2 rest ih =>
    have hnames : namesBack ('.' :: '/' :: rest) = namesBack rest ++ ["."] := by
      simp [namesBack, split_append, split]
    rw [← ih, hnames, counted_append]
    simp [counted]
  | case3 cs hslash hdot =>
    obtain ⟨others, hnames⟩ := exists_namesBack_eq cs
    rcases behindSlash_counts hslash hdot with rfl | rfl | hcounts
    · constructor
      · intro h
        cases h
      · rintro ⟨rfl, hempty, -⟩
        exact absurd rfl hempty
    · constructor
      · intro h
        cases h
      · rintro ⟨rfl, -, hsingle⟩
        exact absurd rfl hsingle
    · have hlast : counted [behindSlash cs] = [behindSlash cs] :=
        List.filter_cons_of_pos (by simpa using hcounts)
      rw [hnames, counted_append, hlast, List.getLast?_concat, Option.some.injEq]
      constructor
      · rintro rfl
        exact ⟨rfl, hcounts⟩
      · exact fun h => h.1

/-! ## The name and its extension -/

variable {p : Path}

/-- The component that a name which counts stands for. -/
def Component.ofName (name : String) : Component := if name = ".." then .up else .name name

theorem filterMap_component? (pieces : List String) :
    pieces.filterMap component? = (counted pieces).map Component.ofName := by
  induction pieces with
  | nil => rfl
  | cons piece rest ih =>
    by_cases hskip : piece = "" ∨ piece = "."
    · have hnone : component? piece = none := if_pos hskip
      rw [Disk.counted_skip hskip, List.filterMap_cons_none hnone, ih]
    · have hsome : component? piece = some (Component.ofName piece) := by
        rw [component?, if_neg hskip, Component.ofName]
        split <;> rfl
      have hcounted : counted (piece :: rest) = piece :: counted rest :=
        List.filter_cons_of_pos (by simpa [not_or] using hskip)
      rw [hcounted, List.filterMap_cons_some hsome, ih, List.map_cons]

/-- A path has a name if its last component counts and does not lead up. -/
theorem fileName?_eq_some {name : String} :
    p.fileName? = some name ↔ p.lastPart = name ∧ name ≠ "" ∧ name ≠ "." ∧ name ≠ ".." := by
  have hlast := getLast?_counted p.text.toList.reverse name
  have hpieces : namesBack p.text.toList.reverse = p.pieces := by
    rw [namesBack, List.reverse_reverse]
    rfl
  rw [hpieces] at hlast
  have hname : p.fileName? = some name ↔
      (counted p.pieces).getLast? = some name ∧ name ≠ ".." := by
    obtain ⟨front, hcomponents, hfront⟩ := p.components_eq
    rw [fileName?, hcomponents, filterMap_component?, List.getLast?_append, List.getLast?_map]
    cases (counted p.pieces).getLast? with
    | none => rcases hfront with ⟨-, rfl⟩ | ⟨-, rfl | rfl⟩ <;> simp
    | some last =>
      by_cases hup : last = ".."
      · simp [Component.ofName, hup, eq_comm]
      · simp only [Option.map_some, Option.some_or, Component.ofName, if_neg hup,
          Option.some.injEq]
        exact ⟨fun h => ⟨h, h ▸ hup⟩, And.left⟩
  rw [hname, hlast]
  exact ⟨fun ⟨⟨h, hempty, hdot⟩, hup⟩ => ⟨h, hempty, hdot, hup⟩,
    fun ⟨h, hempty, hdot, hup⟩ => ⟨⟨h, hempty, hdot⟩, hup⟩⟩

theorem splitAtLastDot_append {before after : List Char} (h : '.' ∉ after) :
    splitAtLastDot (before ++ '.' :: after) = some (before, after) := by
  have hback : '.' ∉ after.reverse := mt List.mem_reverse.mp h
  have hreverse : (before ++ '.' :: after).reverse = after.reverse ++ '.' :: before.reverse := by
    simp
  rw [splitAtLastDot, hreverse, takeWhile_ne hback, dropWhile_ne hback]
  simp

/-- A text is cut at its last dot, if it has one. -/
theorem splitAtLastDot_eq_some {cs before after : List Char} :
    splitAtLastDot cs = some (before, after) ↔ cs = before ++ '.' :: after ∧ '.' ∉ after := by
  constructor
  · intro h
    by_cases hdot : '.' ∈ cs.reverse
    · obtain ⟨back, front, hcs, hback⟩ := List.eq_append_cons_of_mem hdot
      have hcut : cs = front.reverse ++ '.' :: back.reverse := by
        rw [← List.reverse_reverse cs, hcs]
        simp
      rw [hcut, splitAtLastDot_append (mt List.mem_reverse.mp hback)] at h
      cases h
      exact ⟨hcut, mt List.mem_reverse.mp hback⟩
    · rw [splitAtLastDot, List.dropWhile_eq_nil_iff.mpr (ne_of_mem_back hdot)] at h
      cases h
  · rintro ⟨rfl, h⟩
    exact splitAtLastDot_append h

/-- **The extension of a path is what follows the last dot of its last component**, if that is a
name and something stands in front of the dot. -/
theorem extension?_eq_some {ending : String} :
    p.extension? = some ending ↔ p.lastPart ≠ "." ∧ p.lastPart ≠ ".." ∧
      ∃ stem, p.lastPart = stem ++ "." ++ ending ∧ stem ≠ "" ∧ '.' ∉ ending.toList := by
  constructor
  · intro h
    obtain ⟨name, hname, h⟩ := Option.bind_eq_some_iff.mp h
    obtain ⟨hlast, -, hdot, hup⟩ := fileName?_eq_some.mp hname
    split at h
    · rename_i c before after hcut
      cases h
      obtain ⟨hchars, hafter⟩ := splitAtLastDot_eq_some.mp hcut
      refine ⟨hlast ▸ hdot, hlast ▸ hup, String.ofList (c :: before), ?_, by simp,
        by simpa using hafter⟩
      apply String.toList_inj.mp
      simp [hlast, hchars]
    · cases h
  · rintro ⟨hdot, hup, stem, hlast, hstem, hending⟩
    have hchars : p.lastPart.toList = stem.toList ++ '.' :: ending.toList := by simp [hlast]
    have hcut := splitAtLastDot_eq_some.mpr ⟨hchars, hending⟩
    obtain ⟨c, before, hfront⟩ : ∃ c before, stem.toList = c :: before :=
      List.exists_cons_of_ne_nil (by simpa using hstem)
    have hname : p.fileName? = some p.lastPart := by
      refine fileName?_eq_some.mpr ⟨rfl, fun hempty => ?_, hdot, hup⟩
      rw [hempty] at hchars
      simp at hchars
    rw [hfront] at hcut
    simp [extension?, hname, hcut]

end Path

end DepositForm
