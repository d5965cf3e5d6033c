import DepositForm.Proofs.Entry.Paths
import DepositForm.Proofs.Json.Values
import DepositForm.Proofs.Json.Written
import Mathlib

/-! # Entries told by the members of an object

An entry can be told in many ways: its fields in any order, those that are empty left out, and
between them members that are no fields, with any values whatever (`Tells`). All of them are read as
the entry (`read_of_toldBy`).

While the members are read, a field has been given or not, and what has been given is the text of
the entry (`slots`). That a field has been given can be seen from the keys read so far, so the
induction on the members carries these keys along.
-/
namespace DepositForm.Entry

open Json

variable {α : Type} [Entry α] {e : α}

/-- The members of an object tell an entry. Those whose key is the name of a field hold its text,
and no two of them the same field; a field that none of them holds is empty. -/
structure Tells (e : α) (told : List (Member Source)) : Prop where
  text : ∀ m ∈ told, ∀ field ∈ members e, m.key? = some field.1 →
    m.value.body.text? = some field.2
  once : ∀ name ∈ names α, (keys told).count name ≤ 1
  left_out : ∀ field ∈ members e, field.1 ∉ keys told → field.2 = ""

/-- A source is an object that tells an entry. -/
def ToldBy (e : α) (v : Source) : Prop := ∃ gap told, v = .object gap told ∧ Tells e told

/-- The keys of an object are texts. -/
def Keyed : Source → Prop
  | .object _ told => ∀ m ∈ told, m.key?.isSome
  | _ => True

/-! ## The names of an entry -/

theorem map_fst_members_eq (e : α) : (members e).map Prod.fst = names α := by
  rw [map_fst_members, names_eq]

theorem map_snd_members (e : α) : (members e).map Prod.snd = texts e := by
  rw [members, List.map_snd_zip]
  exact Nat.le_of_eq (length_texts e)

theorem nodup_names : (names α).Nodup := by
  rw [names_eq]
  exact (kind α).names_proper.1

theorem mem_names_iff {name : String} : name ∈ names α ↔ ∃ text, (name, text) ∈ members e := by
  rw [← map_fst_members_eq e, List.mem_map]
  simp

/-- A name has one text. -/
theorem text_eq {name text text' : String} (h : (name, text) ∈ members e)
    (h' : (name, text') ∈ members e) : text = text' := by
  have hdistinct : ((members e).map Prod.fst).Nodup := by
    rw [map_fst_members_eq]
    exact nodup_names
  exact congrArg Prod.snd (List.inj_on_of_nodup_map hdistinct h h' rfl)

/-! ## What has been given -/

/-- The fields of an entry when the keys `given` have been read. -/
def slots (e : α) (given : List String) : Announced.Slots :=
  (members e).map fun (name, text) =>
    ({ name }, if name ∈ given then some (some (.text text)) else none)

theorem slots_nil (e : α) : slots e [] = (schema α).fields.map fun field => (field, none) := by
  rw [schema, ← map_fst_members_eq e, List.map_map, List.map_map]
  exact List.map_congr_left fun _ _ => by simp

theorem mem_slots_iff {given : List String} {slot : RecordField × Option (Option FieldValue)} :
    slot ∈ slots e given ↔ ∃ name text, (name, text) ∈ members e ∧
      slot = ({ name }, if name ∈ given then some (some (.text text)) else none) := by
  rw [slots, List.mem_map]
  constructor
  · rintro ⟨⟨name, text⟩, hmem, rfl⟩
    exact ⟨name, text, hmem, rfl⟩
  · rintro ⟨name, text, hmem, rfl⟩
    exact ⟨(name, text), hmem, rfl⟩

theorem find?_slots_eq_none {given : List String} {name : String} (h : name ∉ names α) :
    (slots e given).find? name = none := by
  refine List.find?_eq_none.mpr fun slot hslot => ?_
  obtain ⟨other, text, hmem, rfl⟩ := mem_slots_iff.mp hslot
  have hother : other ∈ names α := mem_names_iff.mpr ⟨text, hmem⟩
  simpa using fun heq : other = name => h (heq ▸ hother)

theorem find?_slots {given : List String} {name : String} (h : name ∈ names α)
    (hnew : name ∉ given) : (slots e given).find? name = some ({ name }, none) := by
  cases hfound : (slots e given).find? name with
  | none =>
    -- There is a slot for every field, whether it has been given or not.
    obtain ⟨text, hmem⟩ := (mem_names_iff (e := e)).mp h
    have hslot : _ ∈ slots e given := mem_slots_iff.mpr ⟨name, text, hmem, rfl⟩
    exact absurd (decide_eq_true rfl) (List.find?_eq_none.mp hfound _ hslot)
  | some slot =>
    have hname : slot.1.name = name := by simpa using List.find?_some hfound
    obtain ⟨other, text, -, rfl⟩ := mem_slots_iff.mp (List.mem_of_find?_eq_some hfound)
    obtain rfl : other = name := hname
    rw [if_neg hnew]

/-- A field that is given its text is one more that has been given. -/
theorem set_slots {given : List String} {name text : String} (h : (name, text) ∈ members e) :
    (slots e given).set name (some (.text text)) = slots e (given ++ [name]) := by
  rw [Announced.Slots.set, slots, slots, List.map_map]
  refine List.map_congr_left fun (other, text') hmem => ?_
  by_cases hother : other = name
  · subst hother
    simp [text_eq h hmem]
  · simp [hother]

/-- What is no field leaves the fields as they are. -/
theorem slots_append_of_not_mem {given : List String} {name : String} (h : name ∉ names α) :
    slots e (given ++ [name]) = slots e given := by
  refine List.map_congr_left fun (other, text) hmem => ?_
  have hother : other ≠ name := by
    rintro rfl
    exact h (mem_names_iff.mpr ⟨text, hmem⟩)
  simp [hother]

theorem finish_slots {ε : Type} (given : List String) (closing : Nat) :
    ((slots e given).finish closing : Except (ReadError ε) _) =
      .ok ((members e).map fun (name, text) =>
        if name ∈ given then some (.text text) else none) := by
  rw [slots]
  induction members e with
  | nil => rfl
  | cons m rest ih =>
    obtain ⟨name, text⟩ := m
    simp only [List.map_cons, Announced.Slots.finish, ih]
    by_cases hgiven : name ∈ given
    · simp [hgiven]
    · simp [hgiven]

/-! ## Reading -/

/-- One member is read: a text that is given to its field, or a value that is passed over. -/
theorem toFields_next {v : Source} {depth afterKey : Nat} {unread : Option Fault}
    {key value : Announced Fault} {rest : Announced.Entries Fault} {given : List String}
    {name : String} (hkey : key.toText = .ok name) (hvalue : v.Shows depth value)
    (htext : ∀ field ∈ members e, name = field.1 → v.text? = some field.2)
    (hnew : name ∈ names α → name ∉ given) :
    (Announced.Entries.next unread key afterKey value rest).toFields (slots e given) =
      rest.toFields (slots e (given ++ [name])) := by
  rw [Announced.Entries.toFields, hkey, ok_bind]
  by_cases hname : name ∈ names α
  · obtain ⟨text, hmem⟩ := (mem_names_iff (e := e)).mp hname
    have hread := Source.toText_of_shows hvalue (htext _ hmem rfl)
    have hfield : value.toFieldValue { name } = .ok (some (.text text)) := by
      simp [Announced.toFieldValue, Announced.toKind, hread, Functor.map, Except.map]
    rw [find?_slots hname (hnew hname)]
    simp only [hfield, ok_bind, set_slots hmem]
  · rw [find?_slots_eq_none hname]
    simp only [Source.pass_of_shows v hvalue, ok_bind, slots_append_of_not_mem hname]

/-- **The members of an object are read field by field**, whatever their order, and whatever stands
between them. -/
theorem toFields_of_tells (given : List String) {told : List (Member Source)} {depth : Nat}
    {entries : Announced.Entries Fault} (hshow : Source.MembersShow depth told entries)
    (hkeyed : ∀ m ∈ told, m.key?.isSome)
    (htext : ∀ m ∈ told, ∀ field ∈ members e, m.key? = some field.1 →
      m.value.body.text? = some field.2)
    (honce : ∀ name ∈ names α, (given ++ keys told).count name ≤ 1) :
    entries.toFields (slots e given) = .ok ((members e).map fun (name, text) =>
      if name ∈ given ++ keys told then some (.text text) else none) := by
  induction told generalizing given entries with
  | nil =>
    obtain ⟨place, rfl⟩ := hshow
    rw [Announced.Entries.toFields, finish_slots, keys, List.filterMap_nil, List.append_nil]
  | cons m rest ih =>
    obtain ⟨before, key, between, ⟨front, v, after⟩⟩ := m
    obtain ⟨unread, announcedKey, afterKey, value, more, rfl, hgives, hv, hrest⟩ := hshow
    obtain ⟨name, hname⟩ := Option.isSome_iff_exists.mp (hkeyed _ List.mem_cons_self)
    have hfirst := htext _ List.mem_cons_self
    -- The key joins those that have been given, and the hypothesis is about the members after it.
    rw [keys_cons hname, List.append_cons] at honce ⊢
    have hnew : name ∈ names α → name ∉ given := by
      intro hfield hgiven
      have hcount := honce name hfield
      have hone := List.one_le_count_iff.mpr hgiven
      simp only [List.count_append, List.count_singleton_self] at hcount
      omega
    rw [toFields_next (hgives.toText_eq hname) hv
      (fun field hfield heq => hfirst field hfield (heq ▸ hname)) hnew]
    exact ih _ hrest (fun m hm => hkeyed m (List.mem_cons_of_mem _ hm))
      (fun m hm => htext m (List.mem_cons_of_mem _ hm)) honce

theorem read_of_toldBy {v : Source} {depth : Nat} {a : Announced Fault} (h : ToldBy e v)
    (hkeyed : Keyed v) (hshow : v.Shows depth a) (hdepth : depth + 1 < depthLimit) :
    read a = .ok e := by
  obtain ⟨gap, told, rfl, htells⟩ := h
  obtain ⟨opening, limit, entries, rfl, hlimit, hmembers⟩ := hshow
  have hfields := toFields_of_tells [] hmembers hkeyed htells.text htells.once
  rw [List.nil_append, slots_nil] at hfields
  -- A field that has not been given is empty anyway.
  have htexts : ((members e).map fun (name, text) =>
      if name ∈ keys told then some (FieldValue.text text) else none).map
        (fun v => (v.bind FieldValue.text?).getD "") = texts e := by
    rw [← map_snd_members e, List.map_map]
    refine List.map_congr_left fun (name, text) hmem => ?_
    by_cases hgiven : name ∈ keys told
    · simp only [Function.comp_apply, if_pos hgiven]
      rfl
    · simp only [Function.comp_apply, if_neg hgiven]
      exact (htells.left_out _ hmem hgiven).symm
  rw [read, Announced.toRecord, hlimit hdepth, Announced.checked_none, ok_bind, hfields]
  change Except.ok (ofTexts _) = _
  rw [htexts, ofTexts_texts]

/-- The text of an entry tells it: all fields in order, and nothing else. -/
theorem exists_toldBy (e : α) : ∃ v : Source, v.chars = write e ∧ ToldBy e v ∧ Keyed v := by
  choose written hchars hkey htext using exists_written_member
  have hkeys : keys ((members e).map written) = names α := by
    have hkey' : Member.key? ∘ written = some ∘ Prod.fst := funext hkey
    rw [keys, List.filterMap_map, hkey', List.filterMap_eq_map, map_fst_members_eq]
  refine ⟨.object ∅ ((members e).map written), ?_, ⟨∅, _, rfl, ?_, ?_, ?_⟩, ?_⟩
  · rw [Source.chars_object, List.map_map, write]
    exact congrArg writeObject (List.map_congr_left fun field _ => hchars field)
  · -- A member is one of the fields, and the name says which one it is.
    rintro m hm ⟨name, text⟩ hfield hname
    obtain ⟨⟨name', text'⟩, hfield', rfl⟩ := List.mem_map.mp hm
    obtain rfl : name' = name := Option.some.inj ((hkey _).symm.trans hname)
    rw [htext, text_eq hfield' hfield]
  · intro name _
    rw [hkeys]
    exact List.nodup_iff_count_le_one.mp (nodup_names (α := α)) name
  · intro field hfield hleft
    rw [hkeys] at hleft
    exact absurd (mem_names_iff.mpr ⟨field.2, hfield⟩) hleft
  · intro m hm
    obtain ⟨field, -, rfl⟩ := List.mem_map.mp hm
    rw [hkey]
    rfl

end DepositForm.Entry

namespace DepositForm.Group

open Json

variable {α : Type} [Entry α]

/-- A source is a list of objects that tell the entries of a group one after the other. -/
def ToldBy (g : Group α) (v : Source) : Prop :=
  ∃ gap items, v = .list gap items ∧
    List.Forall₂ (fun e item => Entry.ToldBy e item.body) g.entries items

/-- The keys of the objects in a list are texts. -/
def Keyed : Source → Prop
  | .list _ items => ∀ item ∈ items, Entry.Keyed item.body
  | _ => True

theorem toList_of_toldBy {entries : List α} {items : List (Padded Source)} {depth : Nat}
    {shown : Announced.Items Fault}
    (htold : List.Forall₂ (fun e item => Entry.ToldBy e item.body) entries items)
    (hkeyed : ∀ item ∈ items, Entry.Keyed item.body) (hshow : Source.ItemsShow depth items shown)
    (hdepth : depth + 1 < depthLimit) : shown.toList Entry.read = .ok entries := by
  induction htold generalizing shown with
  | nil =>
    obtain ⟨place, rfl⟩ := hshow
    rfl
  | @cons e item entries items hitem _ ih =>
    obtain ⟨before, v, after⟩ := item
    obtain ⟨unread, a, more, rfl, hv, hrest⟩ := hshow
    have hread := Entry.read_of_toldBy hitem (hkeyed _ List.mem_cons_self) hv hdepth
    have hmore := ih (fun item hitem => hkeyed item (List.mem_cons_of_mem _ hitem)) hrest
    rw [Announced.Items.toList, hread, ok_bind, hmore]
    rfl

theorem read_of_toldBy {g : Group α} {d : Padded Source} (htold : g.ToldBy d.body)
    (hkeyed : Keyed d.body) : Format.readJson Group.read d.document = .ok g := by
  obtain ⟨gap, items, hbody, hentries⟩ := htold
  refine mapError_eq_ok.mpr (read_document fun a hshow => ?_)
  rw [hbody] at hshow hkeyed
  obtain ⟨opening, limit, shown, rfl, hlimit, hitems⟩ := hshow
  change Group.mk <$> (Announced.sequence opening limit shown).toList Entry.read = _
  rw [Announced.toList, hlimit (by decide), Announced.checked_none, ok_bind,
    toList_of_toldBy hentries hkeyed hitems (by decide)]
  rfl

/-- The text of a group tells it. -/
theorem exists_toldBy (g : Group α) :
    ∃ d : Padded Source, d.document = g.json ∧ g.ToldBy d.body ∧ Keyed d.body := by
  choose written hchars htold hkeyed using Entry.exists_toldBy (α := α)
  refine ⟨{ body := .list ∅ (g.entries.map fun e => { body := written e }) }, ?_,
    ⟨∅, _, rfl, ?_⟩, ?_⟩
  · rw [Padded.document_bare, Source.chars_list, List.map_map, json, write]
    refine congrArg (fun items => String.ofList (writeList items)) ?_
    exact List.map_congr_left fun e _ => (Padded.chars_bare _).trans (hchars e)
  · rw [List.forall₂_map_right_iff]
    exact List.forall₂_same.mpr fun e _ => htold e
  · intro item hitem
    obtain ⟨e, -, rfl⟩ := List.mem_map.mp hitem
    exact hkeyed e

/-- **A group is read from every list that tells it**: the fields of an entry in any order, those
that are empty given or left out, and between them members that are no fields, with any values at
any depth, if only the keys are texts. The text of a group is such a list. -/
theorem read_told (g : Group α) :
    (∀ d : Padded Source, g.ToldBy d.body → Keyed d.body →
      Format.readJson Group.read d.document = .ok g) ∧
    Format.readJson Group.read g.json = .ok g := by
  refine ⟨fun d => read_of_toldBy, ?_⟩
  obtain ⟨d, hd, htold, hkeyed⟩ := exists_toldBy g
  rw [← hd]
  exact read_of_toldBy htold hkeyed

/-- A list with one publication. Its fields are not in order, and two are left out; between them
stands a member that is no field, and its value stands for nothing. -/
def strayList : Padded Source :=
  { body := .list ∅ [{ body := .object ∅ [
      .bare (plain "doi") (.text [.unit '0' '0' '3' '1' 0x31 (by decide)]),
      .bare (plain "id") (.list ∅ [
        { body := .text [.unit 'd' '8' '0' '0' 0xd800 hexNumber?_firstHalf] }]),
      .bare (plain "title") (.text (plain "T"))] }] }

/-- The publication that it tells. -/
def strayGroup : Group Publication := ⟨[{ title := "T", doi := "1" }]⟩

theorem read_told_stray :
    strayList.document =
        "[\x7b\"doi\":\"\\u0031\",\"id\":[\"\\ud800\"],\"title\":\"T\"\x7d]" ∧
      (strayGroup.ToldBy strayList.body ∧ Keyed strayList.body) ∧
      Format.readJson Group.read strayList.document = .ok strayGroup := by
  have htold : strayGroup.ToldBy strayList.body := by
    refine ⟨_, _, rfl, .cons ⟨_, _, rfl, ?_, ?_, ?_⟩ .nil⟩
    · decide +kernel
    · decide +kernel
    · decide +kernel
  have hkeyed : Keyed strayList.body := by
    intro item hitem
    cases List.mem_singleton.mp hitem
    change ∀ m ∈ _, _
    decide +kernel
  exact ⟨by decide +kernel, ⟨htold, hkeyed⟩, (read_told strayGroup).1 strayList htold hkeyed⟩

/-- A list with an object whose only key is half of a pair, and its text. -/
def halfKey : Padded Source :=
  { body := .list ∅ [{ body := .object ∅ [
      .bare [.unit 'd' '8' '0' '0' 0xd800 hexNumber?_firstHalf] .null] }] }

def halfKeyText : String := "[\x7b\"\\ud800\":null\x7d]"

/-- A key has to be a text even if it is the name of no field: every key is read, for otherwise it
could not be known that it is none. -/
theorem unread_half_key :
    halfKey.document = halfKeyText ∧ ToldBy ⟨[Entry.blank Publication]⟩ halfKey.body ∧
      Format.readJson Group.read halfKeyText ≠ .ok (⟨[Entry.blank Publication]⟩ : Group _) := by
  refine ⟨by decide +kernel, ⟨_, _, rfl, .cons ⟨_, _, rfl, ?_, ?_, ?_⟩ .nil⟩, ?_⟩
  · decide +kernel
  · decide +kernel
  · decide +kernel
  · intro hread
    have hfault : ∃ f, Json.read Group.read halfKeyText =
        (.error f : Except (ReadError Fault) (Group Publication)) := by
      unfold halfKeyText
      exact ⟨_, by cbv⟩
    obtain ⟨f, hf⟩ := hfault
    cases hf.symm.trans (mapError_eq_ok.mp hread)

end DepositForm.Group
