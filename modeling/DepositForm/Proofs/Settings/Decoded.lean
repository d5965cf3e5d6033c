import DepositForm.Proofs.Announced.Record
import DepositForm.Proofs.Json.Form
import DepositForm.Proofs.Toml.Definite
import DepositForm.Settings
import Mathlib

/-! # Settings and layers read from the same text

A text may be read as settings, whose missing fields have their defaults, or as a layer, which says
of each field whether it is given. The two readers differ where null stands for a field: a layer
does not give it then, while settings cannot be read.

This is the only difference (`decoded_like_their_layer`). The danger is a text that only one of them
takes, say because a field is of another kind for it. So it is said first which texts tell a layer:
those that announce a record with the layer's values, where entries under other names are passed
over, every value is of its field's kind, and no field is given twice. Settings are read from just
these texts, and are the defaults under the layer. In TOML there is no null, and in JSON null is the
only value that is read as one that is missing.
-/
namespace DepositForm

/-! ## What a text announces -/

/-- In JSON, what stands in a value that is not broken has its form as well. -/
theorem Json.formed_members {depth : Nat} {entries : Announced.Entries Fault}
    {members : List (String × Announced Fault)} (h : FormedEntries depth entries)
    (hmembers : entries.members? = some members) : ∀ m ∈ members, Formed depth m.2 := by
  induction entries using Announced.Entries.members?.induct generalizing members with
  | case1 closing =>
    cases hmembers
    exact List.forall_mem_nil _
  | case2 unread key afterKey value rest name hkey ih =>
    rw [Announced.Entries.members?, hkey] at hmembers
    obtain ⟨more, hmore, rfl⟩ := Option.map_eq_some_iff.mp hmembers
    exact List.forall_mem_cons.mpr ⟨h.1, ih h.2 hmore⟩
  | case3 unread key afterKey value rest error hkey =>
    rw [Announced.Entries.members?, hkey] at hmembers
    cases hmembers
  | case4 reading passing unread => cases hmembers

theorem Json.formed_upTo {depth count : Nat} {items : Announced.Items Fault}
    {found : List (Announced Fault)} (h : FormedItems depth items)
    (hfound : items.upTo? count = some found) : ∀ item ∈ found, Formed depth item := by
  induction count generalizing items found with
  | zero =>
    rw [Announced.Items.upTo?] at hfound
    split at hfound
    · cases hfound
      exact List.forall_mem_nil _
    · cases hfound
  | succ count ih =>
    cases items with
    | done closing =>
      cases hfound
      exact List.forall_mem_nil _
    | next unread item rest =>
      obtain ⟨more, hmore, rfl⟩ := Option.map_eq_some_iff.mp hfound
      exact List.forall_mem_cons.mpr ⟨h.1, ih h.2 hmore⟩
    | broken reading passing unread => cases hfound

/-- A value in JSON is definite unless it is null. -/
theorem Json.definite_of_formed {depth : Nat} {a : Announced Fault} (h : Formed depth a)
    (hnull : ∀ ending, a ≠ .token .null ending) : a.Definite := by
  cases a with
  | token t ending =>
    cases t with
    | null => exact hnull ending rfl
    | unit | absent => exact h.elim
    | _ => exact trivial
  | present inner => exact h.elim
  | _ => exact trivial

/-- What stands for a field in JSON is definite if null does not stand for any. -/
theorem Json.definite_of_standsFor {text : String} {fields : List RecordField}
    (hnull : ∀ ending, ¬ (Announced.token .null ending).StandsFor fields (announce text).value)
    {v : Announced Fault} (hv : v.StandsFor fields (announce text).value) : v.Definite := by
  have hne : ∀ ending, v ≠ .token .null ending := fun ending heq => hnull ending (heq ▸ hv)
  have hformed := formed_document text
  generalize (announce text).value = a at hv hformed
  rcases hv with ⟨hmembers, hmem, -⟩ | ⟨hfound, hmem⟩
  · exact definite_of_formed (formed_members hformed.2 hmembers _ hmem) hne
  · exact definite_of_formed (formed_upTo hformed.2 hfound _ hmem) hne

namespace Format

/-- A text announces a value of which `p` holds, and is no more than this value. -/
def Announces (f : Format) (text : String) (p : {ε : Type} → Announced ε → Prop) : Prop :=
  match f with
  | json => p (Json.announce text).value ∧ (Json.announce text).trailing = none
  | toml => ∃ a, Toml.announce? text = some a ∧ p a

variable {wording : Toml.Wording} {f : Format} {text : String}

/-- A text is read just if its announcement is. -/
theorem read_eq_ok {α : Type} {reader : Reader α} {x : α} :
    f.read wording reader text = .ok x ↔ f.Announces text fun a => reader a = .ok x := by
  cases f with
  | json =>
    rw [read, readJson, mapError_eq_ok]
    exact Json.read_eq_ok
  | toml =>
    rw [read, readToml, mapError_eq_ok, Toml.read, Announces]
    cases Toml.announce? text with
    | none => simp
    | some a => simpa using mapError_eq_ok

/-- Two things that come to the same for what a text announces are announced together. -/
theorem announces_congr {p q : {ε : Type} → Announced ε → Prop}
    (hjson : f = .json → (p (Json.announce text).value ↔ q (Json.announce text).value))
    (htoml : f = .toml → ∀ a, Toml.announce? text = some a → (p a ↔ q a)) :
    f.Announces text p ↔ f.Announces text q := by
  cases f with
  | json => exact and_congr_left' (hjson rfl)
  | toml => exact exists_congr fun a => and_congr_right (htoml rfl a)

/-- A text announces one value, so what is announced of something is announced of a thing that can
be named beforehand. -/
theorem announces_exists {α : Type} {p : α → {ε : Type} → Announced ε → Prop} {q : α → Prop} :
    (f.Announces text fun a => ∃ x, p x a ∧ q x) ↔ ∃ x, f.Announces text (p x) ∧ q x := by
  cases f with
  | json =>
    constructor
    · rintro ⟨⟨x, hp, hq⟩, hend⟩
      exact ⟨x, ⟨hp, hend⟩, hq⟩
    · rintro ⟨x, ⟨hp, hend⟩, hq⟩
      exact ⟨⟨x, hp, hq⟩, hend⟩
  | toml =>
    constructor
    · rintro ⟨a, ha, x, hp, hq⟩
      exact ⟨x, ⟨a, ha, hp⟩, hq⟩
    · rintro ⟨x, ⟨a, ha, hp⟩, hq⟩
      exact ⟨a, ha, x, hp, hq⟩

end Format

/-! ## The two readers -/

variable {ε : Type}

/-- The values of a layer's fields. -/
def Layer.values (layer : Layer) : List (Option FieldValue) :=
  [layer.category.map .text, layer.pathSeparator.map .text, layer.showPaths.map .bool]

namespace FieldValue

theorem exists_text {value : Option FieldValue} (h : ∀ v ∈ value, v.kind = .text) :
    ∃ s : Option String, value = s.map .text := by
  rcases value with _ | (s | b)
  · exact ⟨none, rfl⟩
  · exact ⟨some s, rfl⟩
  · exact nomatch h _ rfl

theorem exists_bool {value : Option FieldValue} (h : ∀ v ∈ value, v.kind = .bool) :
    ∃ b : Option Bool, value = b.map .bool := by
  rcases value with _ | (s | b)
  · exact ⟨none, rfl⟩
  · exact nomatch h _ rfl
  · exact ⟨some b, rfl⟩

@[simp] theorem bind_text? (s : Option String) : (s.map text).bind (·.text?) = s := by
  cases s <;> rfl

@[simp] theorem bind_bool? (b : Option Bool) : (b.map bool).bind (·.bool?) = b := by
  cases b <;> rfl

end FieldValue

/-- A record of settings has the values of a layer. -/
theorem Layer.exists_values {a : Announced ε} {nullable : Bool}
    {values : List (Option FieldValue)} (h : a.IsRecord (Settings.fields nullable) values) :
    ∃ layer : Layer, values = layer.values := by
  have hkinds := Announced.kinds_of_isRecord h
  simp only [Settings.fields, List.forall₂_cons_left_iff, List.forall₂_nil_left_iff] at hkinds
  obtain ⟨category, _, hcategory, ⟨separator, _, hseparator, ⟨shown, _, hshown, rfl, rfl⟩, rfl⟩,
    rfl⟩ := hkinds
  obtain ⟨category, rfl⟩ := FieldValue.exists_text hcategory
  obtain ⟨separator, rfl⟩ := FieldValue.exists_text hseparator
  obtain ⟨shown, rfl⟩ := FieldValue.exists_bool hshown
  exact ⟨⟨category, separator, shown⟩, rfl⟩

/-- The fields of settings have names of their own, so the reader of records reads what is one. -/
theorem Settings.toRecord_eq_ok {a : Announced ε} {name : String} {nullable : Bool}
    {values : List (Option FieldValue)} :
    a.toRecord ⟨name, fields nullable⟩ = .ok values ↔ a.IsRecord (fields nullable) values := by
  have hnames : ((⟨name, fields nullable⟩ : Schema).fields.map RecordField.name).Nodup := by
    simp [fields]
  exact Announced.toRecord_eq_ok hnames

/-- A layer is read from what is a record with its values. -/
theorem Layer.read_eq_ok {a : Announced ε} {layer : Layer} :
    Layer.read a = .ok layer ↔ a.IsRecord (Settings.fields true) layer.values := by
  rw [Layer.read, bind_eq_ok]
  simp only [Settings.toRecord_eq_ok]
  constructor
  · rintro ⟨values, hrecord, hlayer⟩
    obtain ⟨told, rfl⟩ := Layer.exists_values hrecord
    simp only [Layer.values, FieldValue.bind_text?, FieldValue.bind_bool?] at hlayer
    cases hlayer
    exact hrecord
  · intro hrecord
    exact ⟨_, hrecord, by simp [Layer.values]⟩

/-- Settings are read from what is a record with a layer's values, and are the defaults under it. -/
theorem Settings.read_eq_ok {a : Announced ε} {s : Settings} :
    Settings.read a = .ok s ↔ ∃ layer : Layer,
      a.IsRecord (Settings.fields false) layer.values ∧ s = ({} : Settings).under layer := by
  rw [Settings.read, bind_eq_ok]
  simp only [Settings.toRecord_eq_ok]
  constructor
  · rintro ⟨values, hrecord, hsettings⟩
    obtain ⟨layer, rfl⟩ := Layer.exists_values hrecord
    simp only [Layer.values, FieldValue.bind_text?, FieldValue.bind_bool?] at hsettings
    cases hsettings
    exact ⟨layer, hrecord, rfl⟩
  · rintro ⟨layer, hrecord, rfl⟩
    exact ⟨_, hrecord, by simp [Layer.values, Settings.under]⟩

/-! ## Texts -/

/-- The accounts of the fields differ only in whether null may stand for them. -/
theorem Settings.fields_eq (nullable : Bool) :
    fields nullable = (fields false).map (RecordField.withNull nullable) := rfl

/-- In a text in which null stands for no field, it does not matter whether it may. -/
theorem Format.announces_record {f : Format} {text : String} {nullable : Bool}
    (h : f = .json → ∀ ending, ¬ (Announced.token .null ending).StandsFor (Settings.fields false)
      (Json.announce text).value) {values : List (Option FieldValue)} :
    (f.Announces text fun a => a.IsRecord (Settings.fields nullable) values) ↔
      f.Announces text fun a => a.IsRecord (Settings.fields false) values := by
  rw [Settings.fields_eq nullable]
  refine announces_congr (fun hf => ?_) (fun _ a ha => ?_)
  · exact Announced.isRecord_withNull fun v hv => Json.definite_of_standsFor (h hf) hv
  · exact Announced.isRecord_withNull fun v hv => Toml.definite_of_standsFor ha hv

/-- **Settings are read from the same texts as layers, and are the defaults under the layer.** A
layer is read from a text just if it announces a record with the layer's values, whose fields are of
their kinds and given once at most. In JSON null must not stand for a field, as only a layer takes
it. -/
theorem Settings.decoded_like_their_layer (wording : Toml.Wording) (f : Format) (text : String)
    (h : f = .json → ∀ ending, ¬ (Announced.token .null ending).StandsFor (fields false)
      (Json.announce text).value) :
    (∀ layer : Layer, f.read wording Layer.read text = .ok layer ↔
      f.Announces text fun a => a.IsRecord (fields false) layer.values) ∧
    ∀ s : Settings, f.read wording Settings.read text = .ok s ↔
      ∃ layer, f.read wording Layer.read text = .ok layer ∧ s = ({} : Settings).under layer := by
  have hlayer : ∀ layer : Layer, f.read wording Layer.read text = .ok layer ↔
      f.Announces text fun a => a.IsRecord (fields false) layer.values := by
    intro layer
    rw [Format.read_eq_ok]
    simp only [Layer.read_eq_ok]
    exact Format.announces_record h
  refine ⟨hlayer, fun s => ?_⟩
  rw [Format.read_eq_ok]
  simp only [Settings.read_eq_ok, hlayer]
  exact Format.announces_exists

/-- An object that gives two of the fields, behind null in a list for what is none. -/
def Settings.looseText : String :=
  "\x7b\"other\": [null], \"show_paths\": true, \"category\": \"person\"\x7d"

/-- Null for something else does no harm: the fields that are given are read, and the one that is
not has its default. -/
theorem Settings.decoded_loose :
    (∀ ending, ¬ (Announced.token .null ending).StandsFor (fields false)
      (Json.announce looseText).value) ∧
    Format.readJson Settings.read looseText = .ok ⟨"person", ".", true⟩ := by
  have hnull : ∀ ending, ¬ (Announced.token .null ending).StandsFor (fields false)
      (Json.announce looseText).value := by
    obtain ⟨opening, entries, members, hvalue, hmembers, hnot⟩ : ∃ opening entries members,
        (Json.announce looseText).value = .mapping opening none entries ∧
          entries.members? = some members ∧
          ∀ m ∈ members, ∀ ending, m.2 ≠ .token .null ending :=
      ⟨_, _, _, by unfold looseText; cbv, by cbv, by simp⟩
    intro ending hstands
    rw [hvalue] at hstands
    rcases hstands with ⟨hfound, hmem, -⟩ | _
    rw [hmembers] at hfound
    cases hfound
    exact hnot _ hmem ending rfl
  have hlayer : Format.readJson Layer.read looseText =
      .ok { category := some "person", showPaths := some true } := by
    unfold looseText
    exact mapError_eq_ok.mpr (by cbv)
  obtain ⟨-, hsettings⟩ := decoded_like_their_layer (fun _ _ => "") .json looseText fun _ => hnull
  exact ⟨hnull, (hsettings _).mpr ⟨_, hlayer, rfl⟩⟩

end DepositForm
