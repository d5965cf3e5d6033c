import DepositForm.Proofs.Storage.Extend
import DepositForm.Proofs.Storage.Files

/-! # What is written is read

A text that is written at a path is read there again (`read_of_write`). The walk that finds the
place to write to passes directories and links only, and these stay what they are; so the same walk
finds the file afterwards, and what it finds is the text.

For any other path there are two ways. A walk that ends at the written place reads the written text,
and every other walk passes nothing that has changed (`read_after_write`).
-/
namespace DepositForm.Disk

variable {d d' : Disk} {path : Path} {place : Place} {text : String}

theorem write_of_file (text : String) (h : d.walk .create path = .ok (.file place)) :
    d.write path text = .ok (d.put place (.file text.toUTF8)) := by
  rw [write, h]

/-- What is written goes to the file that a path leads to, or to the vacant place. -/
theorem write_eq_ok (h : d.write path text = .ok d') :
    ∃ place, d' = d.put place (.file text.toUTF8) ∧
      (d.walk .create path = .ok (.file place) ∨
        d.walk .create path = .ok (.vacant (some place))) := by
  unfold write at h
  split at h
  · cases h
  · cases h
  · rename_i place hwalk
    cases h
    exact ⟨place, rfl, .inl hwalk⟩
  · rename_i place hwalk
    cases h
    exact ⟨place, rfl, .inr hwalk⟩
  · cases h
  · cases h

/-- A place for a file: there is one already, or nothing. -/
def Open (d : Disk) (place : Place) : Prop :=
  d.content? place = none ∨ ∃ bytes, d.content? place = some (.file bytes)

theorem Open.ne_root (h : d.Open place) : place ≠ [] := by
  rintro rfl
  rcases h with hnone | ⟨bytes, hfile⟩
  · exact nomatch (content?_root d).symm.trans hnone
  · exact nomatch (content?_root d).symm.trans hfile

/-- A directory or a link stays where it is when a file is put elsewhere. -/
theorem Open.content?_put (h : d.Open place) (bytes : ByteArray) {p : Place} {c : Content}
    (hc : ∀ bytes, c ≠ .file bytes) :
    (d.put place (.file bytes)).content? p = some c ↔ d.content? p = some c := by
  by_cases hp : p = place
  · subst hp
    rw [Disk.content?_put _ h.ne_root]
    refine iff_of_false (fun hfile => hc bytes (Option.some.inj hfile).symm) fun hp => ?_
    rcases h with hnone | ⟨bytes', hfile⟩
    · exact nomatch hp.symm.trans hnone
    · exact hc bytes' (Option.some.inj (hp.symm.trans hfile))
  · rw [content?_put_of_ne _ hp]

/-- The walk to the place finds the file that has been put there. -/
theorem Walks.to_put {links : Nat} {spot : Spot} {names : List String} {stop : Stop}
    (h : d.Walks .create links spot names stop) (hopen : d.Open place) (bytes : ByteArray)
    (hstop : stop = .file place ∨ stop = .vacant (some place)) :
    (d.put place (.file bytes)).Walks .look links spot names (.file place) := by
  have hadmits : ∀ rest, Admits .look rest := fun _ h => nomatch h.1
  have hput : (d.put place (.file bytes)).content? place = some (.file bytes) :=
    Disk.content?_put _ hopen.ne_root
  induction h with
  | done | lost | link => simp at hstop
  | skip hskip _ ih => exact .skip hskip (ih hstop)
  | up _ ih => exact .up (ih hstop)
  | vacant hname _ =>
    obtain rfl : _ = place := by simpa using hstop
    exact .file hname hput
  | file hname _ =>
    obtain rfl : _ = place := by simpa using hstop
    exact .file hname hput
  | enter hname _ hdir _ ih =>
    have hdir' := (hopen.content?_put bytes (c := .directory) (fun _ h => nomatch h)).mpr hdir
    exact .enter hname (hadmits _) hdir' (ih hstop)
  | @follow _ _ _ target _ _ hname _ _ hlink _ ih =>
    have hlink' := (hopen.content?_put bytes (c := .link target) (fun _ h => nomatch h)).mpr hlink
    exact .follow hname (hadmits _) (fun h => nomatch h.1) hlink' (ih hstop)

/-- A walk that finds something else found it before the file was put in its place. -/
theorem Walks.of_put {purpose : Purpose} {links : Nat} {spot : Spot} {names : List String}
    {stop : Stop} {bytes : ByteArray}
    (h : (d.put place (.file bytes)).Walks purpose links spot names stop) (hopen : d.Open place) :
    stop = .file place ∨ d.Walks purpose links spot names stop := by
  have hput : (d.put place (.file bytes)).content? place = some (.file bytes) :=
    Disk.content?_put _ hopen.ne_root
  induction h with
  | done => exact .inr .done
  | skip hskip _ ih => exact ih.imp_right (.skip hskip)
  | up _ ih => exact ih.imp_right .up
  | lost hname => exact .inr (.lost hname)
  | @vacant links above name hname hnone =>
    have hne : above ++ [name] ≠ place := by
      rintro rfl
      exact nomatch hput.symm.trans hnone
    exact .inr (.vacant hname (content?_put_of_ne _ hne ▸ hnone))
  | @file links above name bytes' hname hfile =>
    -- Only the place that was written holds another file than before.
    by_cases hplace : above ++ [name] = place
    · exact .inl (congrArg Stop.file hplace)
    · exact .inr (.file hname (content?_put_of_ne _ hplace ▸ hfile))
  | @link links above name target hname hmake hlink =>
    have hlink' := (hopen.content?_put bytes (c := .link target) (fun _ h => nomatch h)).mp hlink
    exact .inr (.link hname hmake hlink')
  | enter hname hadmits hdir _ ih =>
    have hdir' := (hopen.content?_put bytes (c := .directory) (fun _ h => nomatch h)).mp hdir
    exact ih.imp_right (.enter hname hadmits hdir')
  | @follow links above name target rest stop hname hadmits hmake hlink _ ih =>
    have hlink' := (hopen.content?_put bytes (c := .link target) (fun _ h => nomatch h)).mp hlink
    exact ih.imp_right (.follow hname hadmits hmake hlink')

/-- The place that a text is written to, before and after. -/
theorem exists_put_of_write (h : d.write path text = .ok d') :
    ∃ place, d.Open place ∧ d' = d.put place (.file text.toUTF8) ∧
      d'.walk .look path = .ok (.file place) := by
  obtain ⟨place, rfl, hwalk⟩ := write_eq_ok h
  have hopen : d.Open place := by
    rcases hwalk with hwalk | hwalk
    · exact .inr (walk_eq_ok.mp hwalk).2.right
    · exact .inl (walk_eq_ok.mp hwalk).2.right
  refine ⟨place, hopen, rfl, ?_⟩
  rcases hwalk with hwalk | hwalk
  · obtain ⟨hpath, hwalks⟩ := walk_eq_ok.mp hwalk
    exact walk_eq_ok.mpr ⟨hpath, hwalks.to_put hopen _ (.inl rfl)⟩
  · obtain ⟨hpath, hwalks⟩ := walk_eq_ok.mp hwalk
    exact walk_eq_ok.mpr ⟨hpath, hwalks.to_put hopen _ (.inr rfl)⟩

/-- **A text that has been written is there and is read.** -/
theorem read_of_write (h : d.write path text = .ok d') :
    d'.isThere path = true ∧ d'.read path = .ok text := by
  obtain ⟨place, hopen, rfl, hwalk⟩ := exists_put_of_write h
  refine ⟨?_, read_of_text hwalk (Disk.content?_put _ hopen.ne_root)⟩
  rw [isThere, hwalk]

/-- **Whatever is there afterwards** is the text that has been written, or was there before and
reads as it did. -/
theorem read_after_write (h : d.write path text = .ok d') {other : Path}
    (hthere : d'.isThere other = true) :
    d'.read other = .ok text ∨ d.isThere other = true ∧ d'.read other = d.read other := by
  obtain ⟨place, hopen, rfl, -⟩ := exists_put_of_write h
  have hcontent := Disk.content?_put (d := d) (.file text.toUTF8) hopen.ne_root
  cases hwalk : (d.put place (.file text.toUTF8)).walk .look other with
  | error e =>
    rw [isThere, hwalk] at hthere
    cases hthere
  | ok stop =>
    obtain ⟨hpath, hwalks⟩ := walk_eq_ok.mp hwalk
    rcases hwalks.of_put hopen with rfl | hbefore
    · exact .inl (read_of_text hwalk hcontent)
    have hwalk' : d.walk .look other = .ok stop := walk_eq_ok.mpr ⟨hpath, hbefore⟩
    cases stop with
    | directory spot =>
      refine .inr ⟨by rw [isThere, hwalk'], ?_⟩
      rw [read, read, hwalk, hwalk']
    | file p =>
      by_cases hp : p = place
      · subst hp
        exact .inl (read_of_text hwalk hcontent)
      · refine .inr ⟨by rw [isThere, hwalk'], ?_⟩
        rw [read, read, hwalk, hwalk']
        dsimp only
        rw [content?_put_of_ne _ hp]
    | link p =>
      rw [isThere, hwalk] at hthere
      cases hthere
    | vacant p =>
      rw [isThere, hwalk] at hthere
      cases hthere

end DepositForm.Disk
