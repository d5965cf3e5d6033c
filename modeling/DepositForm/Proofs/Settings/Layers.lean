import DepositForm.Proofs.Storage.Loading
import Mathlib.Data.List.Nodup

/-! # Which layer settles a setting

Settings are loaded over three layers: the global file, the local file, the environment. Each field
is settled for itself, by the first that gives it when the layers are gone through from the top
down, and by its default if none does (`FirstGiven`). A file that is not there gives nothing, as
does a variable for a truth value that is no such word; a file that is there but cannot be used
stops the loading, whatever the other layers say.
-/
namespace DepositForm

/-! ## The first that gives -/

section FirstGiven
variable {α : Type}

/-- `v` is given by the first of some sources that gives anything, or it is the standard one where
none does. -/
inductive FirstGiven (standard : α) : List (α → Prop) → α → Prop
  | standard : FirstGiven standard [] standard
  | here {source rest v} : source v → FirstGiven standard (source :: rest) v
  | later {source rest v} : (∀ w, ¬ source w) → FirstGiven standard rest v →
      FirstGiven standard (source :: rest) v

variable {standard : α} {source : α → Prop} {rest : List (α → Prop)}

theorem firstGiven_nil (v : α) : FirstGiven standard [] v ↔ v = standard :=
  ⟨fun h => by cases h; rfl, fun h => h ▸ .standard⟩

/-- A source that gives what an option holds goes before those that come to `w`. -/
theorem firstGiven_cons {given : Option α} {w : α} (h : ∀ u, source u ↔ given = some u)
    (hrest : ∀ u, FirstGiven standard rest u ↔ u = w) (v : α) :
    FirstGiven standard (source :: rest) v ↔ v = given.getD w := by
  cases given with
  | none =>
    have hnone : ∀ u, ¬ source u := fun u hu => nomatch (h u).mp hu
    refine Iff.trans ⟨fun hfirst => ?_, .later hnone⟩ (hrest v)
    cases hfirst with
    | here hv => exact absurd hv (hnone v)
    | later _ hrest => exact hrest
  | some u =>
    constructor
    · intro hfirst
      cases hfirst with
      | here hv => exact (Option.some.inj ((h v).mp hv)).symm
      | later hnone _ => exact absurd ((h u).mpr rfl) (hnone u)
    · intro hv
      exact .here ((h v).mpr (congrArg some hv.symm))

end FirstGiven

/-! ## Variables -/

namespace Environment

variable {e : Environment}

/-- A variable sets a field to a value. -/
def Sets (e : Environment) (field value : String) : Prop :=
  ∃ name, (name, value) ∈ e.bindings ∧ Letter.lowerText name = settingsFront ++ field

/-- What follows the name of a field in the name of a variable that sets a part of it. -/
def partMarks : List String := ["__", ".", "["]

/-- The order of the variables says nothing about settings: no two have the same name in lower case,
and none sets a part of a field. -/
structure Unambiguous (e : Environment) : Prop where
  distinct : (e.bindings.map fun v => Letter.lowerText v.1).Nodup
  whole : ∀ v ∈ e.bindings, ∀ field ∈ Settings.fields true, ∀ mark ∈ partMarks,
    ¬ (settingsFront ++ field.name ++ mark).toList <+: (Letter.lowerText v.1).toList

theorem settingText?_eq_some (h : e.Unambiguous) {field value : String} :
    e.settingText? field = some value ↔ e.Sets field value := by
  have hfind : ∀ {v}, e.bindings.reverse.find?
        (fun v => decide (Letter.lowerText v.1 = settingsFront ++ field)) = some v →
      v ∈ e.bindings ∧ Letter.lowerText v.1 = settingsFront ++ field := fun hfound =>
    ⟨List.mem_reverse.mp (List.mem_of_find?_eq_some hfound), by simpa using List.find?_some hfound⟩
  unfold settingText?
  rw [List.findRev?_eq_find?_reverse, Option.map_eq_some_iff]
  constructor
  · rintro ⟨v, hfound, rfl⟩
    exact ⟨v.1, hfind hfound⟩
  · rintro ⟨name, hmem, hname⟩
    cases hfound : e.bindings.reverse.find?
        (fun v => decide (Letter.lowerText v.1 = settingsFront ++ field)) with
    | none =>
      have hnot := List.find?_eq_none.mp hfound (name, value) (List.mem_reverse.mpr hmem)
      exact absurd (decide_eq_true hname) hnot
    | some v =>
      -- Both variables have the name of the field in lower case, so they are the same one.
      obtain ⟨hv, hlower⟩ := hfind hfound
      have hsame : v = (name, value) :=
        List.inj_on_of_nodup_map h.distinct hv hmem (hlower.trans hname.symm)
      exact ⟨v, rfl, congrArg Prod.snd hsame⟩

/-- The words for a truth value. -/
def truthWords (b : Bool) : List String :=
  if b then ["1", "true", "on", "yes"] else ["0", "false", "off", "no"]

theorem truth?_eq_some {word : String} {b : Bool} :
    truth? word = some b ↔ Letter.lowerText word ∈ truthWords b := by
  have hapart : ∀ w ∈ truthWords true, w ∉ truthWords false := by decide
  have htruth : truth? word =
      if (truthWords true).contains (Letter.lowerText word) then some true
      else if (truthWords false).contains (Letter.lowerText word) then some false
      else none := rfl
  rw [htruth]
  by_cases htrue : Letter.lowerText word ∈ truthWords true
  · rw [if_pos (List.contains_iff_mem.mpr htrue)]
    cases b with
    | true => exact iff_of_true rfl htrue
    | false => exact iff_of_false (fun h => nomatch h) (hapart _ htrue)
  rw [if_neg (mt List.contains_iff_mem.mp htrue)]
  by_cases hfalse : Letter.lowerText word ∈ truthWords false
  · rw [if_pos (List.contains_iff_mem.mpr hfalse)]
    cases b with
    | true => exact iff_of_false (fun h => nomatch h) htrue
    | false => exact iff_of_true rfl hfalse
  · rw [if_neg (mt List.contains_iff_mem.mp hfalse)]
    cases b with
    | true => exact iff_of_false (fun h => nomatch h) htrue
    | false => exact iff_of_false (fun h => nomatch h) hfalse

end Environment

/-! ## Files -/

namespace Files

variable {σ : Type} (files : Files σ) (wording : Toml.Wording) (st : σ)

/-- What is said of a settings file that is there and cannot be used. -/
inductive Fault (path : Path) : String → Prop
  | unreadable {cause} : files.isThere st path = true → files.read st path = .error cause →
      Fault path ("read " ++ path.text ++ ": " ++ cause.message)
  | undecodable {text failure} : files.isThere st path = true → files.read st path = .ok text →
      Toml.read Layer.read text = .error failure →
      Fault path ("parse " ++ path.text ++ ": " ++ wording text failure)

/-- The settings file at a path is there and says `layer`. -/
def Says (path : Path) (layer : Layer) : Prop :=
  files.isThere st path = true ∧
    ∃ text, files.read st path = .ok text ∧ Toml.read Layer.read text = .ok layer

variable {files wording st} {path : Path}

theorem layer_of_fault {message : String} (h : files.Fault wording st path message) :
    files.layer wording st path = .error (.settings message) := by
  cases h with
  | unreadable hthere hread =>
    rw [layer, if_pos hthere, hread]
    rfl
  | undecodable hthere hread hdecode =>
    rw [layer, if_pos hthere, hread]
    change ((Toml.read Layer.read _).mapError (wording _)).mapError _ = _
    rw [hdecode]
    rfl

theorem layer_of_said {layer : Layer} (h : files.Says st path layer) :
    files.layer wording st path = .ok layer := by
  obtain ⟨hthere, text, hread, hdecode⟩ := h
  rw [Files.layer, if_pos hthere, hread]
  change ((Toml.read Layer.read text).mapError (wording text)).mapError _ = _
  rw [hdecode]
  rfl

/-- A settings file is not there, or it is at fault, or it says something. -/
theorem layer_cases (files : Files σ) (wording : Toml.Wording) (st : σ) (path : Path) :
    files.isThere st path = false ∨ (∃ message, files.Fault wording st path message) ∨
      ∃ layer, files.Says st path layer := by
  cases hthere : files.isThere st path with
  | false => exact .inl rfl
  | true =>
    cases hread : files.read st path with
    | error cause => exact .inr (.inl ⟨_, .unreadable hthere hread⟩)
    | ok text =>
      cases hdecode : Toml.read Layer.read text with
      | error failure => exact .inr (.inl ⟨_, .undecodable hthere hread hdecode⟩)
      | ok layer => exact .inr (.inr ⟨layer, hthere, text, hread, hdecode⟩)

section Known
variable (files wording st)

/-- The settings file is known, is there, and cannot be used. -/
def Faulty (path : Option Path) : Prop :=
  ∃ p, path = some p ∧ ∃ message, files.Fault wording st p message

/-- The settings file is known, is there, and gives `v` for a field. -/
def Gives {α : Type} (path : Option Path) (field : Layer → Option α) (v : α) : Prop :=
  ∃ p, path = some p ∧ ∃ layer, files.Says st p layer ∧ field layer = some v

end Known

theorem not_faulty_of_not_there (h : files.isThere st path = false) :
    ¬ files.Faulty wording st (some path) := by
  rintro ⟨p, hp, message, hfault⟩
  cases hp
  have hthere : files.isThere st path = true := by
    cases hfault with
    | unreadable hthere _ => exact hthere
    | undecodable hthere _ _ => exact hthere
  exact nomatch h.symm.trans hthere

theorem not_faulty_of_said {layer : Layer} (h : files.Says st path layer) :
    ¬ files.Faulty wording st (some path) := by
  rintro ⟨p, hp, message, hfault⟩
  cases hp
  exact nomatch (layer_of_fault hfault).symm.trans (layer_of_said h)

theorem layer?_of_not_faulty {known : Option Path} (h : ¬ files.Faulty wording st known) :
    ∃ layer, files.layer? wording st known = .ok layer := by
  cases known with
  | none => exact ⟨{}, rfl⟩
  | some p =>
    rcases files.layer_cases wording st p with hthere | ⟨message, hfault⟩ | ⟨layer, hsays⟩
    · exact ⟨{}, files.layer_of_not_there wording hthere⟩
    · exact absurd ⟨p, rfl, message, hfault⟩ h
    · exact ⟨layer, layer_of_said hsays⟩

/-- A file gives for a field what its layer has. -/
theorem gives_iff {α : Type} {known : Option Path} {layer : Layer} {field : Layer → Option α}
    (h : files.layer? wording st known = .ok layer) (hfield : field {} = none) (v : α) :
    files.Gives st known field v ↔ field layer = some v := by
  constructor
  · rintro ⟨p, rfl, said, hsays, hv⟩
    rw [layer?, layer_of_said hsays] at h
    rwa [← Except.ok.inj h]
  · intro hv
    -- A layer that has a value is said by a file that is there.
    cases known with
    | none =>
      cases h
      rw [hfield] at hv
      cases hv
    | some p =>
      rw [layer?] at h
      rcases files.layer_cases wording st p with hthere | ⟨message, hfault⟩ | ⟨said, hsays⟩
      · rw [files.layer_of_not_there wording hthere] at h
        rw [← Except.ok.inj h, hfield] at hv
        cases hv
      · rw [layer_of_fault hfault] at h
        cases h
      · rw [layer_of_said hsays] at h
        exact ⟨p, rfl, said, hsays, by rwa [Except.ok.inj h]⟩

/-! ## Settings -/

section Layered
variable (files wording st)

/-- Every field of settings has its value from the topmost layer that gives it. -/
structure Layered (e : Environment) (directory : Path) (s : Settings) : Prop where
  category : FirstGiven "community"
    [e.Sets "category", files.Gives st (some (localFile directory)) Layer.category,
      files.Gives st e.globalFile? Layer.category] s.category
  pathSeparator : FirstGiven "."
    [e.Sets "path_separator", files.Gives st (some (localFile directory)) Layer.pathSeparator,
      files.Gives st e.globalFile? Layer.pathSeparator] s.pathSeparator
  /-- A variable gives a truth value only by one of the words for it. -/
  showPaths : FirstGiven false
    [fun b => ∃ word, e.Sets "show_paths" word ∧
        Letter.lowerText word ∈ Environment.truthWords b,
      files.Gives st (some (localFile directory)) Layer.showPaths,
      files.Gives st e.globalFile? Layer.showPaths] s.showPaths

/-- What is said where a settings file stops the loading. The global file is looked at first. -/
inductive Stops (e : Environment) (directory : Path) : String → Prop
  | everywhere {p message} : e.globalFile? = some p → files.Fault wording st p message →
      Stops e directory message
  | here {message} : ¬ files.Faulty wording st e.globalFile? →
      files.Fault wording st (localFile directory) message → Stops e directory message

end Layered

variable {e : Environment} {directory : Path}

theorem exists_stops :
    (∃ message, files.Stops wording st e directory message) ↔
      files.Faulty wording st e.globalFile? ∨
        files.Faulty wording st (some (localFile directory)) := by
  constructor
  · rintro ⟨message, hstops⟩
    cases hstops with
    | everywhere hknown hfault => exact .inl ⟨_, hknown, message, hfault⟩
    | here _ hfault => exact .inr ⟨_, rfl, message, hfault⟩
  · intro h
    by_cases heverywhere : files.Faulty wording st e.globalFile?
    · obtain ⟨p, hknown, message, hfault⟩ := heverywhere
      exact ⟨message, .everywhere hknown hfault⟩
    · obtain ⟨p, hp, message, hfault⟩ := h.resolve_left heverywhere
      cases hp
      exact ⟨message, .here heverywhere hfault⟩

theorem settings_of_stops {message : String} (h : files.Stops wording st e directory message) :
    files.settings wording st e (some directory) = .error (.settings message) := by
  cases h with
  | everywhere hknown hfault =>
    rw [Files.settings, hknown, layer?, layer_of_fault hfault]
    rfl
  | here hnot hfault =>
    obtain ⟨everywhere, heverywhere⟩ := layer?_of_not_faulty hnot
    rw [Files.settings, heverywhere, Option.map_some, layer?, layer_of_fault hfault]
    rfl

/-- Where no settings file stops it, the loading gives the settings under their layers. -/
theorem settings_of_not_stops (h : ∀ message, ¬ files.Stops wording st e directory message) :
    ∃ everywhere here, files.layer? wording st e.globalFile? = .ok everywhere ∧
      files.layer? wording st (some (localFile directory)) = .ok here ∧
      files.settings wording st e (some directory) =
        .ok (((({} : Settings).under everywhere).under here).under e.layer) := by
  have hnot := mt exists_stops.mpr (not_exists.mpr h)
  obtain ⟨everywhere, heverywhere⟩ := layer?_of_not_faulty fun hg => hnot (.inl hg)
  obtain ⟨here, hhere⟩ := layer?_of_not_faulty fun hl => hnot (.inr hl)
  refine ⟨everywhere, here, heverywhere, hhere, ?_⟩
  rw [Files.settings, heverywhere, Option.map_some, hhere]
  rfl

theorem layered_iff {everywhere here : Layer}
    (h : e.Unambiguous) (heverywhere : files.layer? wording st e.globalFile? = .ok everywhere)
    (hhere : files.layer? wording st (some (localFile directory)) = .ok here) (s : Settings) :
    files.Layered st e directory s ↔
      s = ((({} : Settings).under everywhere).under here).under e.layer := by
  have hfiles : ∀ {α : Type} (field : Layer → Option α) (standard : α), field {} = none →
      ∀ v, FirstGiven standard [files.Gives st (some (localFile directory)) field,
          files.Gives st e.globalFile? field] v ↔
        v = (field here).getD ((field everywhere).getD standard) :=
    fun field standard hfield => firstGiven_cons (gives_iff hhere hfield)
      (firstGiven_cons (gives_iff heverywhere hfield) firstGiven_nil)
  have htext : ∀ name v, e.Sets name v ↔ e.settingText? name = some v :=
    fun name v => (Environment.settingText?_eq_some h).symm
  have htruth : ∀ b, (∃ word, e.Sets "show_paths" word ∧
      Letter.lowerText word ∈ Environment.truthWords b) ↔
        (e.settingText? "show_paths").bind Environment.truth? = some b := by
    intro b
    simp only [Option.bind_eq_some_iff, htext, Environment.truth?_eq_some]
  have hcategory := firstGiven_cons (htext "category") (hfiles Layer.category "community" rfl)
  have hseparator := firstGiven_cons (htext "path_separator") (hfiles Layer.pathSeparator "." rfl)
  have hshown := firstGiven_cons htruth (hfiles Layer.showPaths false rfl)
  constructor
  · rintro ⟨hc, hp, hs⟩
    obtain ⟨category, separator, shown⟩ := s
    have hc := (hcategory category).mp hc
    have hp := (hseparator separator).mp hp
    have hs := (hshown shown).mp hs
    rw [hc, hp, hs]
    rfl
  · rintro rfl
    exact ⟨(hcategory _).mpr rfl, (hseparator _).mpr rfl, (hshown _).mpr rfl⟩

/-- **Loading settings fails just when a settings file that is there cannot be used, and otherwise
gives each field from the topmost layer that has it.** The only way to fail is a fault in the
settings, and the settings that are loaded are the only ones with every field from its topmost
layer. -/
theorem loaded_by_layers (files : Files σ) (wording : Toml.Wording) (st : σ) (e : Environment)
    (directory : Path) (h : e.Unambiguous) :
    (files.Faulty wording st e.globalFile? ∨
        files.Faulty wording st (some (localFile directory)) ↔
      ∃ message, Finds st (files.storage.loadSettings wording e (some directory))
        (.error (.settings message))) ∧
    (¬ (files.Faulty wording st e.globalFile? ∨
        files.Faulty wording st (some (localFile directory))) ↔
      ∃ settings, Finds st (files.storage.loadSettings wording e (some directory)) (.ok settings)) ∧
    ∀ settings, Finds st (files.storage.loadSettings wording e (some directory)) (.ok settings) →
      ∀ s, files.Layered st e directory s ↔ s = settings := by
  have hload := files.finds_loadSettings wording st e (some directory)
  by_cases hstops : ∃ message, files.Stops wording st e directory message
  · have hfaulty := exists_stops.mp hstops
    obtain ⟨message, hstops⟩ := hstops
    rw [settings_of_stops hstops] at hload
    have hnever : ∀ settings,
        ¬ Finds st (files.storage.loadSettings wording e (some directory)) (.ok settings) :=
      fun settings hok => nomatch hload.unique hok
    exact ⟨iff_of_true hfaulty ⟨message, hload⟩,
      iff_of_false (not_not_intro hfaulty) (not_exists.mpr hnever),
      fun settings hok => absurd hok (hnever settings)⟩
  · have hsound := mt exists_stops.mpr hstops
    obtain ⟨everywhere, here, heverywhere, hhere, hsettings⟩ :=
      settings_of_not_stops (not_exists.mp hstops)
    rw [hsettings] at hload
    refine ⟨iff_of_false hsound ?_, iff_of_true hsound ⟨_, hload⟩, fun settings hok => ?_⟩
    · rintro ⟨message, hfail⟩
      exact nomatch hload.unique hfail
    · cases hload.unique hok
      exact layered_iff h heverywhere hhere

end Files

/-- A disk on which two settings files disagree about what stands between names. -/
def Disk.layered : Disk where
  contents := [
    (["xdg"], .directory), (["xdg", "rdm-deposit"], .directory),
    (["xdg", "rdm-deposit", "rdm-deposit.toml"],
      .file "category = \"person\"\npath_separator = \"/\"\n".toUTF8),
    (["work"], .directory),
    (["work", ".rdm-deposit.toml"],
      .file "path_separator = \"::\"\nshow_paths = true\n".toUTF8)]

/-- An environment in which the variable for a truth value is no word for one. -/
def Environment.wavering : Environment where
  bindings :=
    [("HOME", "/home"), ("XDG_CONFIG_HOME", "/xdg"), ("RdmDeposit__Show_Paths", "maybe")]

theorem Disk.says_everywhere_layered :
    Disk.files.Says Disk.layered ⟨"/xdg/rdm-deposit/rdm-deposit.toml"⟩
      { category := some "person", pathSeparator := some "/" } := by
  have hread : Disk.layered.read ⟨"/xdg/rdm-deposit/rdm-deposit.toml"⟩ =
      .ok "category = \"person\"\npath_separator = \"/\"\n" := read_of_text rfl rfl
  have hentries : Toml.entries? "category = \"person\"\npath_separator = \"/\"\n" =
      some [("category", .token (.text "person")), ("path_separator", .token (.text "/"))] := rfl
  refine ⟨by decide, _, hread, ?_⟩
  rw [Toml.read, Toml.announce?, hentries]
  rfl

theorem Disk.says_here_layered :
    Disk.files.Says Disk.layered (localFile ⟨"/work"⟩)
      { pathSeparator := some "::", showPaths := some true } := by
  have hread : Disk.layered.read (localFile ⟨"/work"⟩) =
      .ok "path_separator = \"::\"\nshow_paths = true\n" := read_of_text rfl rfl
  have hentries : Toml.entries? "path_separator = \"::\"\nshow_paths = true\n" =
      some [("path_separator", .token (.text "::")), ("show_paths", .token (.bool true))] := rfl
  refine ⟨by decide, _, hread, ?_⟩
  rw [Toml.read, Toml.announce?, hentries]
  rfl

/-- The category is from the global file, what stands between names is from the local one, and so is
whether paths are shown, as the variable for it says nothing. -/
theorem Disk.loaded_layered :
    Environment.wavering.Unambiguous ∧
      ∀ wording, Finds Disk.layered
        (Disk.files.storage.loadSettings wording Environment.wavering (some ⟨"/work"⟩))
        (.ok ⟨"person", "::", true⟩) := by
  have hunambiguous : Environment.wavering.Unambiguous := ⟨by decide, by decide⟩
  refine ⟨hunambiguous, fun wording => ?_⟩
  obtain ⟨-, hsound, hlayered⟩ :=
    Disk.files.loaded_by_layers wording Disk.layered Environment.wavering ⟨"/work"⟩ hunambiguous
  have hglobal : Environment.wavering.globalFile? = some ⟨"/xdg/rdm-deposit/rdm-deposit.toml"⟩ := by
    decide
  have hsaid : Disk.files.Layered Disk.layered Environment.wavering ⟨"/work"⟩
      ⟨"person", "::", true⟩ := by
    have heverywhere : Disk.files.layer? wording Disk.layered Environment.wavering.globalFile? =
        .ok { category := some "person", pathSeparator := some "/" } := by
      rw [hglobal]
      exact Files.layer_of_said says_everywhere_layered
    exact (Files.layered_iff hunambiguous heverywhere
      (Files.layer_of_said says_here_layered) _).mpr (by decide)
  obtain ⟨settings, hloaded⟩ := hsound.mp fun hfaulty => by
    rcases hfaulty with hfaulty | hfaulty
    · rw [hglobal] at hfaulty
      exact Files.not_faulty_of_said says_everywhere_layered hfaulty
    · exact Files.not_faulty_of_said says_here_layered hfaulty
  have hsettings := (hlayered settings hloaded _).mp hsaid
  exact hsettings ▸ hloaded

end DepositForm
