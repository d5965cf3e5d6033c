import DepositForm.Proofs.Command.Ending
import DepositForm.Proofs.Storage.LastPart
import Mathlib

/-! # The format is told by the extension

A path has a format if the format's name is its extension, in any case of the letters. Nothing else
decides: whatever is at the path, and whether anything is there, a path without such an extension is
refused before storage is asked for anything (`format_told_by_extension`).
-/
namespace DepositForm

/-- Two texts are the same but for the case of ASCII letters. -/
def Letter.SameButCase (s t : String) : Prop :=
  s.toList.map Char.toUpper = t.toList.map Char.toUpper

theorem Letter.asciiLower_eq_iff {s t : String} :
    asciiLower s = asciiLower t ↔ SameButCase s t := by
  have hupper : Char.toUpper ∘ Char.toLower = Char.toUpper := funext Char.toUpper_toLower_eq_toUpper
  have hlower : Char.toLower ∘ Char.toUpper = Char.toLower := funext Char.toLower_toUpper_eq_toLower
  unfold asciiLower SameButCase
  rw [String.ofList_inj]
  constructor
  · intro h
    have hmap := congrArg (List.map Char.toUpper) h
    rwa [List.map_map, List.map_map, hupper] at hmap
  · intro h
    have hmap := congrArg (List.map Char.toLower) h
    rwa [List.map_map, List.map_map, hlower] at hmap

/-- The last component of a path is a name with something in front of its last dot, and with
`extension` behind it, in any case of its letters. -/
def Path.HasExtension (p : Path) (extension : String) : Prop :=
  p.lastPart ≠ "." ∧ p.lastPart ≠ ".." ∧ ∃ stem ending, p.lastPart = stem ++ "." ++ ending ∧
    stem ≠ "" ∧ '.' ∉ ending.toList ∧ Letter.SameButCase ending extension

/-- A format marks the paths that have its name for an extension. -/
theorem Format.marks_iff {format : Format} {p : Path} :
    format.Marks p ↔ p.HasExtension format.name := by
  have hname : Letter.asciiLower format.name = format.name := by cases format <;> decide
  rw [Marks, Option.map_eq_some_iff]
  constructor
  · rintro ⟨ending, hending, hlower⟩
    obtain ⟨hdot, hup, stem, hlast, hstem, hafter⟩ := Path.extension?_eq_some.mp hending
    rw [← hname, Letter.asciiLower_eq_iff] at hlower
    exact ⟨hdot, hup, stem, ending, hlast, hstem, hafter, hlower⟩
  · rintro ⟨hdot, hup, stem, ending, hlast, hstem, hafter, hsame⟩
    have hlower := Letter.asciiLower_eq_iff.mpr hsame
    rw [hname] at hlower
    exact ⟨ending, Path.extension?_eq_some.mpr ⟨hdot, hup, stem, hlast, hstem, hafter⟩, hlower⟩

theorem Format.ofPath_eq_ok {format : Format} {p : Path} :
    ofPath p = .ok format ↔ format.Marks p := by
  refine ⟨fun h => ?_, ofPath_of_marks⟩
  by_cases hmarked : ∃ marking : Format, marking.Marks p
  · obtain ⟨marking, hmarks⟩ := hmarked
    rw [ofPath_of_marks hmarks] at h
    exact Except.ok.inj h ▸ hmarks
  · rw [ofPath_of_unsupported fun marking hmarks => hmarked ⟨marking, hmarks⟩] at h
    cases h

section Refused
variable {m : Type → Type} [Monad m] [LawfulMonad m] (s : Storage m)

/-- Nothing is asked of storage before the format is known. -/
structure Storage.Refuses (p : Path) : Prop where
  document : ∀ wording, s.loadDocument wording p = throw (.unsupported p)
  leaves : ∀ wording separator, s.loadLeaves wording p separator = throw (.unsupported p)
  summary : ∀ wording, s.summarize wording p = throw (.unsupported p)
  choices : ∀ wording, s.loadChoices wording p = throw (.unsupported p)

theorem Storage.refuses {p : Path} (h : ∀ format : Format, ¬ format.Marks p) : s.Refuses p where
  document wording := by
    rw [loadDocument, s.readDocument_unsupported _ _ h, ExceptT.bind_throw]
  leaves wording separator := by
    rw [loadLeaves, loadDocument, s.readDocument_unsupported _ _ h, ExceptT.bind_throw,
      ExceptT.bind_throw]
  summary wording := by
    rw [summarize, s.readDocument_unsupported _ _ h, ExceptT.bind_throw]
  choices wording := by
    rw [loadChoices, s.readDocument_unsupported _ _ h, ExceptT.bind_throw]

end Refused

/-- **The extension tells the format, and nothing else does.** A path has the format whose name is
its extension. Every other path is refused with an error that names it, and so is all that can be
asked of a document there, whatever the storage is and without asking it for anything. -/
theorem format_told_by_extension (p : Path) :
    (∀ format : Format, Format.ofPath p = .ok format ↔ p.HasExtension format.name) ∧
    ((∀ format : Format, ¬ p.HasExtension format.name) →
      Format.ofPath p = .error (.unsupported p) ∧
      ∀ {m : Type → Type} [Monad m] [LawfulMonad m] (s : Storage m), s.Refuses p) := by
  refine ⟨fun format => Format.ofPath_eq_ok.trans Format.marks_iff, fun h => ?_⟩
  have hunmarked : ∀ format : Format, ¬ format.Marks p := fun format =>
    mt Format.marks_iff.mp (h format)
  exact ⟨Format.ofPath_of_unsupported hunmarked, fun s => s.refuses hunmarked⟩

/-- Capitals, slashes and dots at the end do not matter; a name that begins with its last dot has no
extension, even if a directory above it has one. -/
theorem format_told_by_last_part :
    (Format.ofPath ⟨"a/..JSON//./"⟩ = .ok .json ∧ (⟨"a/..JSON//./"⟩ : Path).HasExtension "json") ∧
    ((∀ format : Format, ¬ (⟨"a.json/.toml/."⟩ : Path).HasExtension format.name) ∧
      Format.ofPath ⟨"a.json/.toml/."⟩ = .error (.unsupported ⟨"a.json/.toml/."⟩) ∧
      ∀ {m : Type → Type} [Monad m] [LawfulMonad m] (s : Storage m),
        s.Refuses ⟨"a.json/.toml/."⟩) := by
  have hjson : Format.ofPath ⟨"a/..JSON//./"⟩ = .ok .json :=
    Format.ofPath_of_marks (by decide)
  have hnone : ∀ format : Format, ¬ (⟨"a.json/.toml/."⟩ : Path).HasExtension format.name := by
    intro format h
    have hmarks := Format.marks_iff.mpr h
    cases format <;> exact absurd hmarks (by decide)
  exact ⟨⟨hjson, ((format_told_by_extension _).1 .json).mp hjson⟩, hnone,
    (format_told_by_extension _).2 hnone⟩

end DepositForm
