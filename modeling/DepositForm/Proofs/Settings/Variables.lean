import DepositForm.Proofs.Settings.Layers
import DepositForm.Proofs.Storage.LastPart

/-! # Variables that are heard

The system hands its variables over in one block, and they are read from it as they are
(`bindings_ofBlock`).

Of the variables of the environment, those whose names begin with the name of the program are its
own. Where the settings files are is told by others (`globalFile?_foreign`), and the settings are
set by its own only (`settingText?_eq_own`). So an environment loads what it would load without its
own variables, with these laid over it (`settings_eq`).

A variable is heard if its name is, in any case, the name of the program, *two* underscores, and a
field. The template of a settings file announces variables with one underscore, and one underscore
has the variable for the directory of the settings. For a field such a variable is passed over in
silence (`loaded_with_variable`).
-/
namespace DepositForm

namespace Environment

variable {e : Environment} {name field v : String}

/-! ## The block of the system -/

/-- The bytes of a variable as a system hands it over, without the zero byte that ends them. -/
def entryBytes (v : String × String) : List UInt8 := (v.1 ++ "=" ++ v.2).toUTF8.data.toList

/-- A system can hand the variable over: no byte of it is zero, and its name is not empty and has an
equals sign at most in front. -/
structure Handed (v : String × String) : Prop where
  no_zero : 0 ∉ entryBytes v
  name : ∃ first rest, v.1 = String.ofList (first :: rest) ∧ '=' ∉ rest

theorem entries_append {bytes rest : List UInt8} (h : 0 ∉ bytes) :
    entries (bytes ++ 0 :: rest) = bytes :: entries rest := by
  induction bytes with
  | nil => rfl
  | cons byte more ih =>
    obtain ⟨hbyte, hmore⟩ := not_or.mp (mt List.mem_cons.mpr h)
    rw [List.cons_append, entries, if_neg (Ne.symm hbyte), ih hmore]

theorem binding?_entryBytes {v : String × String} (h : Handed v) :
    binding? (entryBytes v) = some v := by
  obtain ⟨name, value⟩ := v
  obtain ⟨first, rest, hname, hrest⟩ := h.name
  dsimp only at hname
  subst hname
  have htext : String.fromUTF8? ⟨(entryBytes (String.ofList (first :: rest), value)).toArray⟩ =
      some (String.ofList (first :: rest) ++ "=" ++ value) := by
    rw [entryBytes, Array.toArray_toList]
    exact dif_pos (String.isValidUTF8 _)
  have hchars : (String.ofList (first :: rest) ++ "=" ++ value).toList =
      first :: (rest ++ '=' :: value.toList) := by simp
  rw [binding?, htext]
  simp only [Option.bind_eq_bind, Option.bind_some, hchars]
  rw [Path.dropWhile_ne hrest, Path.takeWhile_ne hrest]
  simp

/-- **The variables that a system hands over are read as they are**, and in their order. -/
theorem bindings_ofBlock (bindings : List (String × String)) (h : ∀ v ∈ bindings, Handed v) :
    (ofBlock (bindings.flatMap fun v => entryBytes v ++ [0])).bindings = bindings := by
  unfold ofBlock
  dsimp only
  induction bindings with
  | nil => rfl
  | cons v more ih =>
    obtain ⟨hv, hmore⟩ := List.forall_mem_cons.mp h
    rw [List.flatMap_cons, List.append_assoc, List.singleton_append, entries_append hv.no_zero,
      List.filterMap_cons, binding?_entryBytes hv, ih hmore]

/-! ## Own variables and others -/

/-- The name belongs to the program: it begins like the name of the program, in any case. -/
def IsOwn (name : String) : Prop := "rdmdeposit".toList <+: (Letter.lowerText name).toList

instance : DecidablePred IsOwn := fun _ => inferInstanceAs (Decidable (_ <+: _))

/-- The variables of the program itself. -/
def own (e : Environment) : List (String × String) := e.bindings.filter fun v => IsOwn v.1

/-- The environment without the variables of the program. -/
def foreign (e : Environment) : Environment :=
  { e with bindings := e.bindings.filter fun v => ¬ IsOwn v.1 }

/-- The name is, in any case, the one by which a field is set. -/
def Names (name field : String) : Prop := Letter.lowerText name = settingsFront ++ field

instance : Decidable (Names name field) := inferInstanceAs (Decidable (_ = _))

theorem Names.isOwn (h : Names name field) : IsOwn name := by
  have hfront : settingsFront.toList = "rdmdeposit".toList ++ ['_', '_'] := rfl
  rw [IsOwn, h, String.toList_append, hfront, List.append_assoc]
  exact List.prefix_append _ _

theorem get?_foreign (h : ¬ IsOwn name) : e.foreign.get? name = e.get? name := by
  unfold get? foreign
  dsimp only
  induction e.bindings with
  | nil => rfl
  | cons b rest ih =>
    obtain ⟨key, value⟩ := b
    by_cases hkey : IsOwn key
    · have hname : (name == key) = false := by
        refine beq_eq_false_iff_ne.mpr ?_
        rintro rfl
        exact h hkey
      rw [List.filter_cons_of_neg (by simp [hkey]), ih, List.lookup_cons, hname]
    · rw [List.filter_cons_of_pos (by simp [hkey]), List.lookup_cons, List.lookup_cons, ih]

/-- Where the settings files are is not told by variables of the program. -/
theorem globalFile?_foreign (e : Environment) : e.foreign.globalFile? = e.globalFile? := by
  have hhome : e.foreign.get? "HOME" = e.get? "HOME" := get?_foreign (by decide)
  have hconfig : e.foreign.get? "XDG_CONFIG_HOME" = e.get? "XDG_CONFIG_HOME" :=
    get?_foreign (by decide)
  have haccount : e.foreign.accountHome = e.accountHome := rfl
  rw [globalFile?, globalFile?, globalDirectory?, globalDirectory?, configHome?, configHome?, home?,
    home?, hhome, hconfig, haccount]

/-- What sets a field is found among the variables of the program. -/
theorem settingText?_eq_own (e : Environment) (field : String) :
    e.settingText? field =
      (e.own.findRev? fun v => Letter.lowerText v.1 = settingsFront ++ field).map (·.2) := by
  have hnames : ∀ v : String × String,
      IsOwn v.1 ∧ Letter.lowerText v.1 = settingsFront ++ field ↔
        Letter.lowerText v.1 = settingsFront ++ field :=
    fun v => and_iff_right_of_imp Names.isOwn
  unfold settingText? own
  rw [List.findRev?_eq_find?_reverse, List.findRev?_eq_find?_reverse, ← List.filter_reverse,
    List.find?_filter]
  simp only [decide_eq_true_eq, hnames]

theorem settingText?_foreign (e : Environment) (field : String) :
    e.foreign.settingText? field = none := by
  have hnone : e.foreign.own = [] := by simp [own, foreign]
  rw [settingText?_eq_own, hnone]
  rfl

@[simp] theorem layer_foreign (e : Environment) : e.foreign.layer = {} := by
  rw [layer, settingText?_foreign, settingText?_foreign, settingText?_foreign]
  rfl

/-- One variable of the program sets the field that it names, and no other one. -/
theorem settingText?_of_own (h : e.own = [(name, v)]) (field : String) :
    e.settingText? field = if Names name field then some v else none := by
  rw [settingText?_eq_own, h]
  by_cases hname : Names name field
  · have hlower : Letter.lowerText name = settingsFront ++ field := hname
    rw [if_pos hname]
    simp [List.findRev?, hlower]
  · have hlower : ¬ Letter.lowerText name = settingsFront ++ field := hname
    rw [if_neg hname]
    simp [List.findRev?, hlower]

/-! ## Variables with one underscore -/

/-- The names of variables that a reader of the template would set. -/
def announcedNames : List String :=
  ["RDMDEPOSIT_CATEGORY", "RDMDEPOSIT_PATH_SEPARATOR", "RDMDEPOSIT_SHOW_PATHS"]

theorem not_names_of_announced (h : name ∈ announcedNames) :
    ∀ field ∈ Settings.fields true, ¬ Names name field.name := by
  revert name
  decide

/-- The layer of an environment in which the program has one variable. -/
theorem layer_of_own (h : e.own = [(name, v)]) :
    e.layer =
      { category := if Names name "category" then some v else none
        pathSeparator := if Names name "path_separator" then some v else none
        showPaths := (if Names name "show_paths" then some v else none).bind truth? } := by
  rw [layer, settingText?_of_own h, settingText?_of_own h, settingText?_of_own h]

/-- A name sets one field at most. -/
theorem Names.not_names {other : String} (h : Names name field) (hne : field ≠ other) :
    ¬ Names name other := by
  intro hother
  have hsame : settingsFront ++ field = settingsFront ++ other := h.symm.trans hother
  exact hne ((String.append_right_inj settingsFront).mp hsame)

/-- What a variable makes of the settings that hold without it. -/
structure Heard (name v : String) (s s' : Settings) : Prop where
  category : Names name "category" → s' = { s with category := v }
  pathSeparator : Names name "path_separator" → s' = { s with pathSeparator := v }
  showPaths : Names name "show_paths" →
    ∀ b, Letter.lowerText v ∈ truthWords b → s' = { s with showPaths := b }
  /-- A text that is no word for a truth value sets none. -/
  noTruth : Names name "show_paths" → (∀ b, Letter.lowerText v ∉ truthWords b) → s' = s
  other : (∀ field ∈ Settings.fields true, ¬ Names name field.name) → s' = s

theorem heard_of_own (h : e.own = [(name, v)]) (s : Settings) :
    Heard name v s (s.under e.layer) := by
  rw [layer_of_own h]
  constructor
  · intro hname
    rw [if_pos hname, if_neg (hname.not_names (by decide)), if_neg (hname.not_names (by decide))]
    rfl
  · intro hname
    rw [if_pos hname, if_neg (hname.not_names (by decide)), if_neg (hname.not_names (by decide))]
    rfl
  · intro hname b hb
    rw [if_pos hname, if_neg (hname.not_names (by decide)), if_neg (hname.not_names (by decide)),
      Option.bind_some, truth?_eq_some.mpr hb]
    rfl
  · intro hname hnone
    have htruth : truth? v = none := by
      by_contra hsome
      obtain ⟨b, hb⟩ := Option.ne_none_iff_exists'.mp hsome
      exact hnone b (truth?_eq_some.mp hb)
    rw [if_pos hname, if_neg (hname.not_names (by decide)), if_neg (hname.not_names (by decide)),
      Option.bind_some, htruth]
    rfl
  · intro hnone
    simp only [Settings.fields, List.forall_mem_cons] at hnone
    obtain ⟨hcategory, hseparator, hshown, -⟩ := hnone
    rw [if_neg hcategory, if_neg hseparator, if_neg hshown]
    rfl

end Environment

namespace Files

variable {σ : Type} (files : Files σ) (wording : Toml.Wording) (st : σ) {e : Environment}
  {name v : String} {directory : Path} {s : Settings}

/-- A layer that gives nothing changes nothing. -/
theorem under_no_layer (s : Settings) : s.under {} = s := rfl

/-- The variables of the program lie over what is loaded without them. -/
theorem settings_eq (e : Environment) (directory : Option Path) :
    files.settings wording st e directory = (do
      let s ← files.settings wording st e.foreign directory
      return s.under e.layer) := by
  simp [settings, e.globalFile?_foreign, under_no_layer]

/-- **One variable of the program sets the field that it names, with two underscores, and nothing
else.** With one underscore, as the template announces it, it does nothing. -/
theorem loaded_with_variable (hown : e.own = [(name, v)])
    (hloaded : Finds st (files.storage.loadSettings wording e.foreign (some directory)) (.ok s)) :
    ∃ s', Finds st (files.storage.loadSettings wording e (some directory)) (.ok s') ∧
      Environment.Heard name v s s' ∧ (name ∈ Environment.announcedNames → s' = s) := by
  have hforeign := (files.finds_loadSettings wording st e.foreign (some directory)).unique hloaded
  have hload := files.finds_loadSettings wording st e (some directory)
  rw [settings_eq, hforeign] at hload
  have hheard := Environment.heard_of_own hown s
  exact ⟨_, hload, hheard, fun h => hheard.other (Environment.not_names_of_announced h)⟩

end Files

/-- An environment with one variable of the program. -/
def Environment.single (name value : String) : Environment where
  bindings := [("XDG_CONFIG_HOME", "/xdg"), (name, value), ("HOME", "/home")]

/-- A variable with two underscores goes before the settings file of the directory. -/
theorem Disk.variable_heard :
    let e : Environment := .single "RdmDeposit__Path_Separator" ">"
    e.own = [("RdmDeposit__Path_Separator", ">")] ∧
      ∀ wording,
        Finds layered (Disk.files.storage.loadSettings wording e.foreign (some ⟨"/work"⟩))
          (.ok ⟨"person", "::", true⟩) ∧
        Finds layered (Disk.files.storage.loadSettings wording e (some ⟨"/work"⟩))
          (.ok ⟨"person", ">", true⟩) := by
  intro e
  have hown : e.own = [("RdmDeposit__Path_Separator", ">")] := by decide
  have hglobal : e.foreign.globalFile? = some ⟨"/xdg/rdm-deposit/rdm-deposit.toml"⟩ := by decide
  refine ⟨hown, fun wording => ?_⟩
  have hloaded := Disk.files.finds_loadSettings wording layered e.foreign (some ⟨"/work"⟩)
  rw [Files.settings, hglobal, Files.layer?, Files.layer_of_said says_everywhere_layered,
    Option.map_some, Files.layer?, Files.layer_of_said says_here_layered,
    Environment.layer_foreign] at hloaded
  obtain ⟨s, hfinds, hheard, -⟩ := Disk.files.loaded_with_variable wording layered hown hloaded
  rw [hheard.pathSeparator (by decide)] at hfinds
  exact ⟨hloaded, hfinds⟩

/-- A variable with one underscore is not heard, even where nothing else says anything. -/
theorem Disk.variable_unheard :
    (Environment.single "RDMDEPOSIT_CATEGORY" "person").own = [("RDMDEPOSIT_CATEGORY", "person")] ∧
      ∀ wording, Finds ({} : Disk)
        (storage.loadSettings wording (.single "RDMDEPOSIT_CATEGORY" "person") (some ⟨"."⟩))
        (.ok ⟨"community", ".", false⟩) :=
  ⟨by decide, fun _ => rfl⟩

end DepositForm
