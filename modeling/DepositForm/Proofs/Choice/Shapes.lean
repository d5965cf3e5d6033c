import DepositForm.Proofs.Json.Values
import DepositForm.Proofs.Json.Written
import DepositForm.Proofs.Storage.Loading
import Mathlib

/-! # The two shapes of options

A document of options is a list, or a table that holds the list under `options`. It is taken as it
is before anyone looks for options in it (`readAll`), so both shapes come to one question: what is
read of the list, announced once more. It is what has been written (`toList_announce`).

In a table the other entries are taken too, and must therefore stand for something; but what they
are does not matter, for they are left out before the options are read (`ofValue?_table`).
-/
namespace DepositForm.Choice

open Json

/-! ## What options stand for -/

/-- The entries of an option: those that are written, in this order. -/
def entries (c : Choice) : List (String × String) :=
  match c.key with
  | some key => [("key", key), ("text", c.text), ("value", c.value)]
  | none => [("text", c.text), ("value", c.value)]

theorem write_eq (c : Choice) :
    write c = writeObject (c.entries.map fun entry => writeEntry entry.1 (writeText entry.2)) := by
  rw [write, entries]
  cases c.key <;> rfl

/-- What an option stands for. -/
def table (c : Choice) : Value :=
  .table (c.entries.map fun entry => (entry.1, .token (.text entry.2)))

theorem read_announce (c : Choice) : read c.table.announce = .ok c := by
  obtain ⟨key, text, value⟩ := c
  cases key <;> rfl

theorem toList_announce (options : List Choice) :
    (Value.list (options.map table)).announce.toList read = .ok options := by
  have hitems : (Value.announceItems (options.map table)).toList read = .ok options := by
    induction options with
    | nil => rfl
    | cons c rest ih =>
      rw [List.map_cons, Value.announceItems, Announced.Items.toList, read_announce, ok_bind, ih]
      rfl
  rw [Value.announce, Announced.toList, Announced.checked_none, ok_bind, hitems]

theorem ofValue?_list (options : List Choice) :
    ofValue? (.list (options.map table)) = some options := by
  rw [ofValue?, toList_announce]
  rfl

/-- Entries under other keys are left out, wherever they stand. -/
theorem ofValue?_table {before after : List (String × Value)} (options : List Choice)
    (hothers : ∀ e ∈ before ++ after, e.1 ≠ "options") :
    ofValue? (.table (before ++ ("options", .list (options.map table)) :: after)) =
      some options := by
  have hfilter : (before ++ ("options", Value.list (options.map table)) :: after).filter
      (·.1 = "options") = [("options", .list (options.map table))] := by
    have hnone : ∀ {es : List (String × Value)}, (∀ e ∈ es, e.1 ≠ "options") →
        es.filter (·.1 = "options") = [] := by
      intro es hes
      exact List.filter_eq_nil_iff.mpr fun e he => by simpa using hes e he
    obtain ⟨hbefore, hafter⟩ := List.forall_mem_append.mp hothers
    rw [List.filter_append, List.filter_cons_of_pos (by simp), hnone hbefore, hnone hafter]
    rfl
  rw [ofValue?, hfilter]
  dsimp only
  rw [toList_announce]
  rfl

/-! ## Their source -/

/-- What is written of an option is a source that stands for it. -/
theorem exists_source (c : Choice) :
    ∃ v : Source, v.chars = write c ∧ v.value? = some c.table ∧ v.depth ≤ 1 := by
  choose written hchars hkey htext using exists_written_member
  have hentry : Member.pair? ∘ written =
      fun entry => pure (entry.1, Value.token (.text entry.2)) := by
    funext entry
    rw [Function.comp_apply, Member.pair?, hkey, Source.value?_of_text? (htext entry)]
    rfl
  have hdepth : Source.memberDepth (c.entries.map written) ≤ 0 := by
    refine Source.memberDepth_le_iff.mpr (List.forall_mem_map.mpr fun entry _ => ?_)
    exact Nat.le_of_eq (Source.depth_of_text? (htext entry))
  refine ⟨.object ∅ (c.entries.map written), ?_, ?_, ?_⟩
  · rw [Source.chars_object, List.map_map, write_eq]
    exact congrArg writeObject (List.map_congr_left fun entry _ => hchars entry)
  · rw [Source.value?, Source.memberValues?_eq_mapM, List.mapM_map, hentry, List.mapM_pure]
    rfl
  · rw [Source.depth]
    omega

/-- The text of some options is that of a source that stands for them. -/
theorem exists_list_source (options : List Choice) :
    ∃ v : Source, v.chars = (json options).toList ∧
      v.value? = some (.list (options.map table)) ∧ v.depth ≤ 2 := by
  choose written hchars hvalue hdepth using exists_source
  let item (c : Choice) : Padded Source := { body := written c }
  have hbody : (fun p : Padded Source => p.body.value?) ∘ item = fun c => pure c.table :=
    funext hvalue
  have hitems : Source.itemDepth (options.map item) ≤ 1 :=
    Source.itemDepth_le_iff.mpr (List.forall_mem_map.mpr fun c _ => hdepth c)
  refine ⟨.list ∅ (options.map item), ?_, ?_, ?_⟩
  · rw [Source.chars_list, List.map_map, json, String.toList_ofList]
    exact congrArg writeList (List.map_congr_left fun c _ => (Padded.chars_bare _).trans (hchars c))
  · rw [Source.value?, Source.itemValues?_eq_mapM, List.mapM_map, hbody, List.mapM_pure]
    rfl
  · rw [Source.depth]
    omega

/-! ## Reading -/

theorem readAll_eq_ok {ε : Type} {a : Announced ε} {v : Value} {options : List Choice}
    (hvalue : a.toValue = .ok v) (hoptions : ofValue? v = some options) :
    readAll a = .ok options := by
  rw [readAll, hvalue, ok_bind, hoptions]

/-- Options are read from every document that stands for either shape of them. -/
theorem readAll_document {d : Padded Source} {v : Value} {options : List Choice}
    (hvalue : d.body.value? = some v) (hoptions : ofValue? v = some options)
    (hdepth : d.body.depth < depthLimit) :
    Format.readJson readAll d.document = .ok options := by
  refine mapError_eq_ok.mpr (read_document fun a hshows => ?_)
  exact readAll_eq_ok (Source.toValue_of_shows d.body hshows hvalue hdepth) hoptions

/-- The text of some options can be read as them. -/
theorem read_json (options : List Choice) :
    Format.readJson readAll (json options) = .ok options := by
  obtain ⟨v, hchars, hvalue, hdepth⟩ := exists_list_source options
  have hdocument : Padded.document { body := v } = json options := by
    rw [Padded.document_bare, hchars, String.ofList_toList]
  rw [← hdocument]
  exact readAll_document hvalue (ofValue?_list options) (Nat.lt_of_le_of_lt hdepth (by decide))

/-! ## Tables -/

/-- A document that holds some options in a table. Their text stands there once under its key, among
entries with other keys. -/
structure Tabled (options : List Choice) where
  gap : Gap
  before : List (Member Source)
  entry : Member Source
  after : List (Member Source)
  key_eq : entry.key? = some "options"
  chars_eq : entry.value.body.chars = (json options).toList
  once : ∀ m ∈ before ++ after, m.key? ≠ some "options"

namespace Tabled

variable {options : List Choice} (t : Tabled options)

def source : Source := .object t.gap (t.before ++ t.entry :: t.after)

/-- The entry with another source in the place of the options. -/
def entryWith (v : Source) : Member Source :=
  { t.entry with value := { t.entry.value with body := v } }

/-- The table with another source in the place of the options. -/
def sourceWith (v : Source) : Source := .object t.gap (t.before ++ t.entryWith v :: t.after)

variable {v : Source}

theorem chars_sourceWith (h : v.chars = (json options).toList) :
    (t.sourceWith v).chars = t.source.chars := by
  simp only [sourceWith, source, entryWith, Source.chars, Source.memberChars_eq_map,
    List.map_append, List.map_cons, Member.chars, Padded.chars, h, t.chars_eq]

theorem value?_sourceWith (h : v.value? = some (.list (options.map table)))
    (hothers : ∀ m ∈ t.before ++ t.after, m.key?.isSome ∧ m.value.body.value?.isSome) :
    ∃ before after, (t.sourceWith v).value? =
        some (.table (before ++ ("options", .list (options.map table)) :: after)) ∧
      ∀ e ∈ before ++ after, e.1 ≠ "options" := by
  obtain ⟨hbefore, hafter⟩ := List.forall_mem_append.mp hothers
  obtain ⟨honceBefore, honceAfter⟩ := List.forall_mem_append.mp t.once
  obtain ⟨before, hfirst, hkeys⟩ := Source.exists_memberValues hbefore
  obtain ⟨after, hlast, hkeys'⟩ := Source.exists_memberValues hafter
  have hkey : (t.entryWith v).key? = some "options" := t.key_eq
  have hvalue : (t.entryWith v).value.body.value? = some (.list (options.map table)) := h
  have hentry : (t.entryWith v).pair? = some ("options", .list (options.map table)) := by
    rw [Member.pair?, hkey, hvalue]
    rfl
  refine ⟨before, after, ?_, List.forall_mem_append.mpr ⟨fun e he heq => ?_, fun e he heq => ?_⟩⟩
  · rw [Source.memberValues?_eq_mapM] at hfirst hlast
    rw [sourceWith, Source.value?, Source.memberValues?_eq_mapM, List.mapM_append, List.mapM_cons,
      hfirst, hentry, hlast]
    rfl
  · obtain ⟨m, hm, hname⟩ := hkeys e he
    exact honceBefore m hm (heq ▸ hname)
  · obtain ⟨m, hm, hname⟩ := hkeys' e he
    exact honceAfter m hm (heq ▸ hname)

theorem depth_sourceWith (h : v.depth ≤ 2) (hdepth : t.source.depth < depthLimit) :
    (t.sourceWith v).depth < depthLimit := by
  unfold depthLimit at *
  rw [source, Source.depth] at hdepth
  have hmembers : Source.memberDepth (t.before ++ t.entry :: t.after) ≤ 126 := by omega
  obtain ⟨hbefore, hrest⟩ := List.forall_mem_append.mp (Source.memberDepth_le_iff.mp hmembers)
  obtain ⟨-, hafter⟩ := List.forall_mem_cons.mp hrest
  -- The other members are as deep as they were, and options are nowhere near the limit.
  have hentry : (t.entryWith v).value.body.depth ≤ 126 := Nat.le_trans h (by decide)
  have hmembers' : Source.memberDepth (t.before ++ t.entryWith v :: t.after) ≤ 126 :=
    Source.memberDepth_le_iff.mpr
      (List.forall_mem_append.mpr ⟨hbefore, List.forall_mem_cons.mpr ⟨hentry, hafter⟩⟩)
  rw [sourceWith, Source.depth]
  omega

/-- The table is read as the options, if its other entries stand for something. Nothing is asked of
the way in which the text of the options is put together: it could as well be that of the source
that stands for them. -/
theorem read_document (front back : Gap)
    (hothers : ∀ m ∈ t.before ++ t.after, m.key?.isSome ∧ m.value.body.value?.isSome)
    (hdepth : t.source.depth < depthLimit) :
    Format.readJson readAll (Padded.document ⟨front, t.source, back⟩) = .ok options := by
  obtain ⟨v, hchars, hvalue, hlevels⟩ := exists_list_source options
  obtain ⟨before, after, htable, honce⟩ := t.value?_sourceWith hvalue hothers
  have hsame : Padded.document ⟨front, t.source, back⟩ =
      Padded.document ⟨front, t.sourceWith v, back⟩ := by
    rw [Padded.document, Padded.document, Padded.chars, Padded.chars, t.chars_sourceWith hchars]
  rw [hsame]
  exact readAll_document htable (ofValue?_table options honce) (t.depth_sourceWith hlevels hdepth)

end Tabled

end DepositForm.Choice

namespace DepositForm.Files

open Choice Json

variable {σ : Type} (files : Files σ) (wording : Toml.Wording) (st : σ) {path : Path}

/-- What is loaded is what has been read, in order. -/
theorem finds_loadChoices_iff {text : String} (hformat : Format.ofPath path = .ok .json)
    (hread : files.read st path = .ok text) {sorted : List Choice} :
    Finds st (files.storage.loadChoices wording path) (.ok sorted) ↔
      ∃ options, Format.readJson readAll text = .ok options ∧ sorted = sort options := by
  have hfinds := files.finds_loadChoices wording st path
  rw [files.document_of_read wording st hformat hread, Format.read] at hfinds
  cases hparse : Format.readJson readAll text with
  | ok options =>
    rw [hparse] at hfinds
    constructor
    · intro h
      cases h.unique hfinds
      exact ⟨options, rfl, rfl⟩
    · rintro ⟨_, ⟨⟩, rfl⟩
      exact hfinds
  | error message =>
    rw [hparse] at hfinds
    constructor
    · intro h
      cases h.unique hfinds
    · rintro ⟨_, ⟨⟩, -⟩

/-- **Both shapes of a document of options mean the same.** The text of some options is loaded as
these options in order, and so is every table that holds it once under its key, whatever its other
entries are: they only have to stand for something, because everything in the document is taken. -/
theorem loaded_from_either_shape (hformat : Format.ofPath path = .ok .json)
    (options : List Choice) :
    (files.read st path = .ok (json options) →
      Finds st (files.storage.loadChoices wording path) (.ok (sort options))) ∧
    ∀ (t : Tabled options) (front back : Gap),
      (∀ m ∈ t.before ++ t.after, m.key?.isSome ∧ m.value.body.value?.isSome) →
      t.source.depth < depthLimit →
      files.read st path = .ok (Padded.document ⟨front, t.source, back⟩) →
      Finds st (files.storage.loadChoices wording path) (.ok (sort options)) := by
  refine ⟨fun hread => ?_, fun t front back hothers hdepth hread => ?_⟩
  · have hoptions := read_json options
    exact (files.finds_loadChoices_iff wording st hformat hread).mpr ⟨options, hoptions, rfl⟩
  · have hoptions := t.read_document front back hothers hdepth
    exact (files.finds_loadChoices_iff wording st hformat hread).mpr ⟨options, hoptions, rfl⟩

end DepositForm.Files

namespace DepositForm

open Choice Json

/-- Two options that are not in order, one of them with a key. -/
def twoChoices : List Choice :=
  [{ text := "b", value := "2" }, { key := some "k", text := "a", value := "1" }]

/-- A table with these options behind a note. -/
def twoTabled : Tabled twoChoices where
  gap := ∅
  before := [.bare (plain "note") (.list ∅ [{ body := .null }])]
  entry := .bare (plain "options") (.list ∅ [
    { body := .object ∅ [
      .bare (plain "text") (.text (plain "b")), .bare (plain "value") (.text (plain "2"))] },
    { body := .object ∅ [
      .bare (plain "key") (.text (plain "k")), .bare (plain "text") (.text (plain "a")),
      .bare (plain "value") (.text (plain "1"))] }])
  after := []
  key_eq := by decide +kernel
  chars_eq := by decide +kernel
  once := by decide +kernel

/-- A disk with the options in both shapes. -/
def Disk.offering : Disk where
  contents := [
    (["list.json"], .file (json twoChoices).toUTF8),
    (["table.json"], .file (Padded.document { body := twoTabled.source }).toUTF8)]

theorem Disk.loaded_from_both_files :
    (Disk.offering.read ⟨"list.json"⟩ = .ok (json twoChoices) ∧
      Disk.offering.read ⟨"table.json"⟩ =
        .ok (Padded.document { body := twoTabled.source })) ∧
      ∀ wording, Finds Disk.offering (Disk.files.storage.loadChoices wording ⟨"list.json"⟩)
          (.ok (Choice.sort twoChoices)) ∧
        Finds Disk.offering (Disk.files.storage.loadChoices wording ⟨"table.json"⟩)
          (.ok (Choice.sort twoChoices)) := by
  have hlist : Disk.offering.read ⟨"list.json"⟩ = .ok (json twoChoices) := read_of_text rfl rfl
  have htable : Disk.offering.read ⟨"table.json"⟩ =
      .ok (Padded.document { body := twoTabled.source }) := read_of_text rfl rfl
  have hothers : ∀ m ∈ twoTabled.before ++ twoTabled.after,
      m.key?.isSome ∧ m.value.body.value?.isSome := by decide +kernel
  have hformat : Format.ofPath ⟨"list.json"⟩ = .ok .json := rfl
  have hformat' : Format.ofPath ⟨"table.json"⟩ = .ok .json := rfl
  refine ⟨⟨hlist, htable⟩, fun wording => ?_⟩
  obtain ⟨hshape, -⟩ :=
    Disk.files.loaded_from_either_shape wording Disk.offering hformat twoChoices
  obtain ⟨-, hshape'⟩ :=
    Disk.files.loaded_from_either_shape wording Disk.offering hformat' twoChoices
  exact ⟨hshape hlist, hshape' twoTabled ∅ ∅ hothers (by decide) htable⟩

/-- A table with an empty list of options, behind a note that is half of a pair, and its text. -/
def halfTabled : Tabled [] where
  gap := ∅
  before := [.bare (plain "note") (.text [.unit 'd' '8' '0' '0' 0xd800 hexNumber?_firstHalf])]
  entry := .bare (plain "options") (.list ∅ [])
  after := []
  key_eq := by decide +kernel
  chars_eq := by decide +kernel
  once := by decide +kernel

def halfTabledText : String := "\x7b\"note\":\"\\ud800\",\"options\":[]\x7d"

/-- A disk with this table. -/
def Disk.halved : Disk where
  contents := [(["table.json"], .file halfTabledText.toUTF8)]

/-- What stands beside the options is taken before it is left out. The table does not nest too deep
and has no number, and yet its options are not to be had. -/
theorem Disk.unloaded_beside_half :
    Disk.halved.read ⟨"table.json"⟩ = .ok (Padded.document { body := halfTabled.source }) ∧
      halfTabled.source.depth < depthLimit ∧
      ∀ wording, ¬ Finds Disk.halved (Disk.files.storage.loadChoices wording ⟨"table.json"⟩)
        (.ok (Choice.sort [])) := by
  have hdocument : Padded.document { body := halfTabled.source } = halfTabledText := by
    decide +kernel
  have hread : Disk.halved.read ⟨"table.json"⟩ = .ok halfTabledText := read_of_text rfl rfl
  have hformat : Format.ofPath ⟨"table.json"⟩ = .ok .json := rfl
  refine ⟨hdocument ▸ hread, by decide, fun wording hfinds => ?_⟩
  obtain ⟨options, hoptions, -⟩ :=
    (Disk.files.finds_loadChoices_iff wording Disk.halved hformat hread).mp hfinds
  have hfault : ∃ f, Json.read readAll halfTabledText =
      (.error f : Except (ReadError Fault) (List Choice)) := by
    unfold halfTabledText
    exact ⟨_, by cbv⟩
  obtain ⟨f, hf⟩ := hfault
  cases hf.symm.trans (mapError_eq_ok.mp hoptions)

end DepositForm
