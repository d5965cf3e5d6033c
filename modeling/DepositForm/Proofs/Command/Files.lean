import DepositForm.Proofs.Command.Effect
import DepositForm.Proofs.Storage.Climb
import DepositForm.Proofs.Storage.Written

/-! # Files over a run of the program

What a run of calls does to the files on a disk. No call makes a file that holds anything but the
template, and none removes one. Whether a file that is there keeps what it holds is another matter:
a call that finds nothing at the path of a settings file makes the directories of that path before
it writes, and by then the path may lead to a file that was there all along (`Call.Overwrites`).

What one call can do is said once (`withSettings_cases`); the run is an induction on the calls.
-/
namespace DepositForm

namespace Disk

variable {d d' : Disk}

/-- What a new settings file holds. -/
def templateBytes : ByteArray := Settings.template.toUTF8

/-- A place to which a file can be written: none is there yet, or one is, and no directory. -/
structure Writable (d : Disk) (place : Place) : Prop where
  not_directory : d.content? place ≠ some .directory
  above : d.Rooted → ∃ above name, place = above ++ [name] ∧ d.content? above = some .directory

theorem Writable.ne_root {place : Place} (h : d.Writable place) : place ≠ [] := by
  rintro rfl
  exact h.not_directory (content?_root d)

theorem writable_of_file {path : Path} {place : Place}
    (h : d.walk .create path = .ok (.file place)) : d.Writable place := by
  obtain ⟨bytes, hfile⟩ := (walk_eq_ok.mp h).2.right
  have hdir : d.content? place ≠ some .directory := by
    rw [hfile]
    simp
  refine ⟨hdir, fun hrooted => ?_⟩
  rcases List.eq_nil_or_concat place with rfl | ⟨above, name, rfl⟩
  · exact absurd (content?_root d) hdir
  · rw [List.concat_eq_append] at hfile ⊢
    exact ⟨above, name, rfl, hrooted.above above name (by rw [hfile]; simp)⟩

theorem writable_of_vacant {path : Path} {place : Place}
    (h : d.walk .create path = .ok (.vacant (some place))) : d.Writable place := by
  obtain ⟨-, hwalks⟩ := walk_eq_ok.mp h
  have hnone : d.content? place = none := hwalks.right
  refine ⟨by rw [hnone]; simp, fun hrooted => ?_⟩
  exact hwalks.above hrooted (stands_startOf path hrooted.stands) rfl

/-- **What making a settings file can do.** Directories are made, or directories and then the file.
The file goes to a vacant place, or to the one to which its path leads back. -/
theorem withSettings_cases (d : Disk) (file : Path) :
    ∃ d', d.Extends d' ∧
      ((d.withSettings file = d' ∧ ∀ place, ¬ d.Reopens file place) ∨
        ∃ place, d.withSettings file = d'.put place (.file templateBytes) ∧ d'.Writable place ∧
          (d'.content? place = none ∨ d.Reopens file place) ∧
          ∀ other, d.Reopens file other → other = place) := by
  unfold withSettings
  by_cases hthere : d.isThere file = true
  · refine ⟨d, .refl d, .inl ⟨if_pos hthere, fun place h => ?_⟩⟩
    rw [h.1] at hthere
    cases hthere
  rw [if_neg hthere]
  have hextends := extends_ensureParent d file
  cases hparent : d.ensureParent file with
  | mk made d' =>
    rw [hparent] at hextends
    -- A path that leads back has been made, and leads there on this very disk.
    have hback : ∀ place, d.Reopens file place →
        made = .ok () ∧ d'.walk .create file = .ok (.file place) := by
      rintro place ⟨-, d₁, hparent₁, hwalk⟩
      rw [hparent] at hparent₁
      cases hparent₁
      exact ⟨rfl, hwalk⟩
    refine ⟨d', hextends, ?_⟩
    cases made with
    | error cause => exact .inl ⟨rfl, fun place h => nomatch (hback place h).1⟩
    | ok u =>
      dsimp only
      cases hwrite : d'.write file Settings.template with
      | error cause =>
        refine .inl ⟨rfl, fun place h => ?_⟩
        rw [write_of_file _ (hback place h).2] at hwrite
        cases hwrite
      | ok d'' =>
        obtain ⟨place, rfl, hwalk | hwalk⟩ := write_eq_ok hwrite
        · have hreopens : d.Reopens file place := by
            exact ⟨Bool.eq_false_iff.mpr hthere, d', hparent, hwalk⟩
          refine .inr ⟨place, rfl, writable_of_file hwalk, .inr hreopens, fun other h => ?_⟩
          have hother := (hback other h).2
          rw [hwalk] at hother
          cases hother
          rfl
        · have hnone : d'.content? place = none := (walk_eq_ok.mp hwalk).2.right
          refine .inr ⟨place, rfl, writable_of_vacant hwalk, .inl hnone, fun other h => ?_⟩
          have hother := (hback other h).2
          rw [hwalk] at hother
          cases hother

theorem rooted_withSettings (hrooted : d.Rooted) (file : Path) : (d.withSettings file).Rooted := by
  obtain ⟨d', hextends, ⟨heq, -⟩ | ⟨place, heq, hwritable, -, -⟩⟩ := withSettings_cases d file
  · rw [heq]
    exact hextends.rooted hrooted
  · have hrooted' := hextends.rooted hrooted
    obtain ⟨above, name, rfl, habove⟩ := hwritable.above hrooted'
    rw [heq]
    exact hrooted'.put _ habove hwritable.not_directory

/-- A file that was not there before holds the template. -/
theorem file_of_withSettings {file : Path} {place : Place} {bytes : ByteArray}
    (h : (d.withSettings file).content? place = some (.file bytes)) :
    d.content? place = some (.file bytes) ∨ bytes = templateBytes := by
  have hold : ∀ d', d.Extends d' → d'.content? place = some (.file bytes) →
      d.content? place = some (.file bytes) := by
    intro d' hextends hfile
    rcases hextends.content place with heq | ⟨-, hdir⟩
    · rwa [heq] at hfile
    · rw [hdir] at hfile
      cases hfile
  obtain ⟨d', hextends, ⟨heq, -⟩ | ⟨written, heq, hwritable, -, -⟩⟩ := withSettings_cases d file
  · rw [heq] at h
    exact .inl (hold d' hextends h)
  · rw [heq] at h
    by_cases hplace : place = written
    · rw [hplace, content?_put _ hwritable.ne_root] at h
      exact .inr (Content.file.inj (Option.some.inj h)).symm
    · rw [content?_put_of_ne _ hplace] at h
      exact .inl (hold d' hextends h)

/-- A file that was there holds what it held, or the template if the path has led back to it. -/
theorem withSettings_of_file (file : Path) {place : Place} {bytes : ByteArray}
    (h : d.content? place = some (.file bytes)) :
    (¬ d.Reopens file place → (d.withSettings file).content? place = some (.file bytes)) ∧
      (d.Reopens file place →
        (d.withSettings file).content? place = some (.file templateBytes)) := by
  obtain ⟨d', hextends, ⟨heq, hnever⟩ | ⟨written, heq, hwritable, hwhere, honly⟩⟩ :=
    withSettings_cases d file
  · rw [heq]
    exact ⟨fun _ => hextends.of_some h, fun hreopens => absurd hreopens (hnever place)⟩
  · rw [heq]
    refine ⟨fun hnot => ?_, fun hreopens => ?_⟩
    · have hplace : place ≠ written := by
        rintro rfl
        rcases hwhere with hnone | hreopens
        · rw [hextends.of_some h] at hnone
          cases hnone
        · exact hnot hreopens
      rw [content?_put_of_ne _ hplace]
      exact hextends.of_some h
    · rw [honly place hreopens, content?_put _ hwritable.ne_root]

end Disk

/-! ## One call -/

/-- A call overwrites the file at `place`: it comes to make a settings file, and the path of that
file leads back to `place`. -/
def Call.Overwrites (c : Call) (d : Disk) (place : Place) : Prop :=
  ∃ file, c.target? d = some file ∧ d.Reopens file place

/-- A call comes to make a settings file whose path climbs out of a missing directory. -/
def Call.Climbs (c : Call) (d : Disk) : Prop :=
  ∃ file, c.target? d = some file ∧ d.Climbs (Disk.startOf file d.spot) (Disk.namesOf file)

namespace Disk

variable {d : Disk} {c : Call} {place : Place} {bytes : ByteArray}

theorem rooted_after (h : d.Rooted) (c : Call) : (d.after c).Rooted := by
  rw [after_eq]
  cases c.target? d with
  | none => exact h
  | some file => exact rooted_withSettings h file

theorem file_of_after (h : (d.after c).content? place = some (.file bytes)) :
    d.content? place = some (.file bytes) ∨ bytes = templateBytes := by
  rw [after_eq] at h
  cases hc : c.target? d with
  | none =>
    rw [hc] at h
    exact .inl h
  | some file =>
    rw [hc] at h
    exact file_of_withSettings h

theorem after_of_file (c : Call) (h : d.content? place = some (.file bytes)) :
    (¬ c.Overwrites d place → (d.after c).content? place = some (.file bytes)) ∧
      (c.Overwrites d place → (d.after c).content? place = some (.file templateBytes)) := by
  rw [after_eq]
  cases hc : c.target? d with
  | none =>
    refine ⟨fun _ => h, fun ⟨file, htarget, _⟩ => ?_⟩
    rw [hc] at htarget
    cases htarget
  | some file =>
    obtain ⟨hkept, hover⟩ := withSettings_of_file file h
    refine ⟨fun hnot => hkept fun hreopens => hnot ⟨file, hc, hreopens⟩, ?_⟩
    rintro ⟨file', htarget, hreopens⟩
    rw [hc] at htarget
    cases htarget
    exact hover hreopens

/-! ## Runs -/

/-- The disk after some calls. -/
def afterAll (d : Disk) (calls : List Call) : Disk := calls.foldl after d

/-- `p` holds of some call of a run and the disk on which it is made. -/
def Happens (p : Call → Disk → Prop) (d : Disk) : List Call → Prop
  | [] => False
  | c :: rest => p c d ∨ Happens p (d.after c) rest

theorem file_of_afterAll {calls : List Call}
    (h : (d.afterAll calls).content? place = some (.file bytes)) :
    d.content? place = some (.file bytes) ∨ bytes = templateBytes := by
  induction calls generalizing d with
  | nil => exact .inl h
  | cons c rest ih =>
    rcases ih h with hafter | hbytes
    · exact file_of_after hafter
    · exact .inr hbytes

/-- Over a run, a file is kept until a call overwrites it, and holds the template from then on. -/
theorem afterAll_of_file (calls : List Call) (h : d.content? place = some (.file bytes)) :
    (¬ Happens (·.Overwrites · place) d calls →
        (d.afterAll calls).content? place = some (.file bytes)) ∧
      (Happens (·.Overwrites · place) d calls →
        (d.afterAll calls).content? place = some (.file templateBytes)) := by
  induction calls generalizing d bytes with
  | nil => exact ⟨fun _ => h, False.elim⟩
  | cons c rest ih =>
    obtain ⟨hkept, hover⟩ := after_of_file c h
    by_cases hc : c.Overwrites d place
    · -- From here on the file holds the template, overwritten again or not.
      obtain ⟨hkept', hover'⟩ := ih (hover hc)
      refine ⟨fun hnot => absurd (.inl hc) hnot, fun _ => ?_⟩
      by_cases hrest : Happens (·.Overwrites · place) (d.after c) rest
      · exact hover' hrest
      · exact hkept' hrest
    · obtain ⟨hkept', hover'⟩ := ih (hkept hc)
      refine ⟨fun hnot => hkept' fun hrest => hnot (.inr hrest), ?_⟩
      rintro (h | hrest)
      · exact absurd h hc
      · exact hover' hrest

/-- On a rooted disk a run overwrites files only if some path in it climbs. -/
theorem climbs_of_overwrites {calls : List Call} (hrooted : d.Rooted)
    (h : Happens (·.Overwrites · place) d calls) : Happens Call.Climbs d calls := by
  induction calls generalizing d with
  | nil => exact h
  | cons c rest ih =>
    rcases h with ⟨file, htarget, hreopens⟩ | hrest
    · exact .inl ⟨file, htarget, climbs_of_reopens hrooted hreopens⟩
    · exact .inr (ih (rooted_after hrooted c) hrest)

/-- **What a run of calls does to files.** A file that is there in the end was there, or it holds
the template. A file that was there keeps what it holds, unless that is not the template and some
call finds nothing at the path of its settings file and is led back to this one after making the
directories of that path. On a rooted disk this needs a path that climbs out of a missing directory:
a run without such paths keeps every file. -/
theorem file_kept_iff_not_overwritten (d : Disk) (calls : List Call) :
    (∀ place bytes, (d.afterAll calls).content? place = some (.file bytes) →
      d.content? place = some (.file bytes) ∨ bytes = templateBytes) ∧
    (∀ place bytes, d.content? place = some (.file bytes) →
      ((d.afterAll calls).content? place = some (.file bytes) ↔
        bytes = templateBytes ∨ ¬ Happens (·.Overwrites · place) d calls)) ∧
    (d.Rooted → ¬ Happens Call.Climbs d calls → ∀ place bytes,
      d.content? place = some (.file bytes) →
        (d.afterAll calls).content? place = some (.file bytes)) := by
  refine ⟨fun place bytes => file_of_afterAll, ?_, ?_⟩
  · intro place bytes hfile
    obtain ⟨hkept, hover⟩ := afterAll_of_file calls hfile
    by_cases h : Happens (·.Overwrites · place) d calls
    · rw [hover h]
      constructor
      · intro heq
        exact .inl (Content.file.inj (Option.some.inj heq)).symm
      · rintro (hbytes | hnot)
        · rw [hbytes]
        · exact absurd h hnot
    · exact ⟨fun _ => .inr h, fun _ => hkept h⟩
  · intro hrooted hclimbs place bytes hfile
    exact (afterAll_of_file calls hfile).1 fun h => hclimbs (climbs_of_overwrites hrooted h)

end Disk

/-- A disk with a settings file in the directory where one stands. -/
def Disk.settled : Disk where
  contents := [(["work"], .directory),
    (["work", ".rdm-deposit.toml"], .file "category = \"person\"\n".toUTF8)]
  spot := .live ["work"]

/-- The call for a settings file in the directory above one that is missing. -/
def Call.climbing (borrowed : Command.Borrowed) : Call where
  borrowed := borrowed
  environment := {}
  coloured := false
  invocation := { directory := some ⟨"missing/.."⟩, command := some (.config (.init false)) }

theorem Disk.reopens_settled :
    settled.Reopens (localFile ⟨"missing/.."⟩) ["work", ".rdm-deposit.toml"] := by
  have hfirst : settled.ensureDirectory ⟨"missing/.."⟩ = (.error .notFound, settled) := rfl
  have hmissing : settled.ensureDirectory ⟨"missing"⟩ =
      (.ok (), settled.put ["work", "missing"] .directory) := rfl
  have hagain : (settled.put ["work", "missing"] .directory).ensureDirectory ⟨"missing/.."⟩ =
      (.ok (), settled.put ["work", "missing"] .directory) := rfl
  have hparent : (localFile ⟨"missing/.."⟩).parentComponents? = some [.name "missing", .up] := by
    decide
  have hdirs : Path.ancestors [.name "missing", .up] = [⟨"missing/.."⟩, ⟨"missing"⟩] := by decide
  refine ⟨by decide, settled.put ["work", "missing"] .directory, ?_, rfl⟩
  rw [ensureParent, hparent]
  dsimp only
  rw [hdirs, ensureAll, hfirst]
  dsimp only
  rw [ensureAll, hmissing]
  exact hagain

/-- The call makes the missing directory, comes back to the settings file, and overwrites it. -/
theorem Disk.settings_lost :
    settled.content? ["work", ".rdm-deposit.toml"] =
        some (.file "category = \"person\"\n".toUTF8) ∧
      (∀ borrowed, (settled.after (.climbing borrowed)).content? ["work", ".rdm-deposit.toml"] =
        some (.file templateBytes)) ∧
      "category = \"person\"\n".toUTF8 ≠ templateBytes := by
  have hthere : settled.content? ["work", ".rdm-deposit.toml"] =
      some (.file "category = \"person\"\n".toUTF8) := rfl
  have htarget : ∀ borrowed,
      (Call.climbing borrowed).target? settled = some (localFile ⟨"missing/.."⟩) := fun _ => rfl
  refine ⟨hthere, fun borrowed => ?_, fun h => ?_⟩
  · exact (after_of_file (.climbing borrowed) hthere).2 ⟨_, htarget borrowed, reopens_settled⟩
  · have htext : "category = \"person\"\n" = Settings.template := String.toByteArray_inj.mp h
    simp [Settings.template] at htext

end DepositForm
