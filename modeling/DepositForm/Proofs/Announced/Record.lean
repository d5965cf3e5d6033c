import DepositForm.Announced.Record
import DepositForm.Proofs.Announced.Steps
import Mathlib.Data.List.Forall2
import Mathlib.Data.List.Nodup

/-! # What is read as a record

A record is read from a mapping or from a list, and this module says from which ones, and what its
fields are then, without the reader (`IsRecord`). A mapping gives a field what stands under its
name. No field may stand in it twice, what it gives must be of the field's kind, and what stands
under other names is passed over, whatever it is (`Fills`). A list gives the fields in their order,
and may be too short.

The reader goes through a mapping once and fills one slot for every field. So the induction is on
the entries that are left, and says what they still have to give for the slots as they are: a slot
that has been filled must not be met again (`toFields_eq_ok`).

A field may take null for a value that is missing. That makes no difference to a record all of whose
fields are given definite values (`isRecord_withNull`).
-/
namespace DepositForm

variable {ε : Type}

/-! ## Records -/

/-- What a field holds if `found` is what is given for it. It may be left out only if it need not be
there. -/
def RecordField.Holds (field : RecordField) (found : Option (Announced ε))
    (value : Option FieldValue) : Prop :=
  match found with
  | some a => a.toFieldValue field = .ok value
  | none => field.required = false ∧ value = none

namespace Announced

/-- The members of a mapping: its keys with what stands under them, if the keys are texts and
nothing is broken. -/
def Entries.members? : Entries ε → Option (List (String × Announced ε))
  | .done _ => some []
  | .next _ key _ value rest =>
    match key.toText with
    | .ok name => rest.members?.map ((name, value) :: ·)
    | .error _ => none
  | .broken _ _ _ => none

/-- The items of a list, if a reader that stops after `count` of them meets no fault. -/
def Items.upTo? : Nat → Items ε → Option (List (Announced ε))
  | 0, items => if items.unread?.isNone then some [] else none
  | _ + 1, .done _ => some []
  | count + 1, .next _ item rest => (rest.upTo? count).map (item :: ·)
  | _ + 1, .broken _ _ _ => none

/-- Members give the fields of a record their values. -/
structure Fills (fields : List RecordField) (members : List (String × Announced ε))
    (values : List (Option FieldValue)) : Prop where
  /-- No field is given twice. -/
  once : ∀ field ∈ fields, (members.map Prod.fst).count field.name ≤ 1
  /-- What is no field is passed over. -/
  passed : ∀ m ∈ members, m.1 ∉ fields.map RecordField.name → m.2.pass = .ok ()
  values : List.Forall₂ (fun field value => field.Holds (members.lookup field.name) value)
    fields values

/-- Items give the fields of a record their values, one after the other. -/
inductive FillInOrder :
    List RecordField → List (Announced ε) → List (Option FieldValue) → Prop
  | nil : FillInOrder [] [] []
  | cons {field fields items value values} : field.Holds items.head? value →
      FillInOrder fields items.tail values →
      FillInOrder (field :: fields) items (value :: values)

/-- A record with these values, which may be entered and is told in one of the two ways. -/
inductive IsRecord (fields : List RecordField) (values : List (Option FieldValue)) :
    Announced ε → Prop
  | mapping {opening entries members} : entries.members? = some members →
      Fills fields members values → IsRecord fields values (.mapping opening none entries)
  | sequence {opening items found} : items.upTo? fields.length = some found →
      FillInOrder fields found values → IsRecord fields values (.sequence opening none items)

/-! ## Slots -/

/-- What a slot holds in the end: what it was filled with, or else what is still found for it. -/
def SlotHolds (slot : RecordField × Option (Option FieldValue)) (found : Option (Announced ε))
    (value : Option FieldValue) : Prop :=
  match slot.2 with
  | some given => value = given
  | none => slot.1.Holds found value

/-- Members give what is missing in some slots. -/
structure Completes (slots : Slots) (members : List (String × Announced ε))
    (values : List (Option FieldValue)) : Prop where
  /-- What has been given is not given again, and nothing is given twice. -/
  once : ∀ slot ∈ slots, (members.map Prod.fst).count slot.1.name ≤ if slot.2.isSome then 0 else 1
  passed : ∀ m ∈ members, m.1 ∉ slots.map (·.1.name) → m.2.pass = .ok ()
  values : List.Forall₂ (fun slot value => SlotHolds slot (members.lookup slot.1.name) value)
    slots values

theorem finish_eq_ok {slots : Slots} {closing : Nat} {values : List (Option FieldValue)} :
    (slots.finish closing : Except (ReadError ε) _) = .ok values ↔
      List.Forall₂ (fun slot value => SlotHolds slot (none : Option (Announced ε)) value)
        slots values := by
  induction slots generalizing values with
  | nil => exact ⟨fun h => Except.ok.inj h ▸ .nil, fun h => by cases h; rfl⟩
  | cons slot rest ih =>
    obtain ⟨field, given⟩ := slot
    rw [List.forall₂_cons_left_iff]
    cases given with
    | some v =>
      rw [Slots.finish, ok_bind, bind_eq_ok]
      simp only [ih, pure_eq_ok, Except.ok.injEq]
      exact ⟨fun ⟨vs, hvs, h⟩ => ⟨v, vs, rfl, hvs, h.symm⟩,
        fun ⟨_, vs, hv, hvs, h⟩ => ⟨vs, hvs, hv ▸ h.symm⟩⟩
    | none =>
      rw [Slots.finish]
      cases hrequired : field.required with
      | true =>
        rw [if_pos rfl, error_bind]
        refine iff_of_false (fun h => nomatch h) ?_
        rintro ⟨v, vs, ⟨hleft, -⟩, -⟩
        exact nomatch hrequired.symm.trans hleft
      | false =>
        rw [if_neg Bool.false_ne_true, ok_bind, bind_eq_ok]
        simp only [ih, pure_eq_ok, Except.ok.injEq]
        exact ⟨fun ⟨vs, hvs, h⟩ => ⟨none, vs, ⟨hrequired, rfl⟩, hvs, h.symm⟩,
          fun ⟨_, vs, hv, hvs, h⟩ => ⟨vs, hvs, hv.2 ▸ h.symm⟩⟩

theorem names_set (slots : Slots) (name : String) (v : Option FieldValue) :
    (slots.set name v).map (·.1.name) = slots.map (·.1.name) := by
  rw [Slots.set, List.map_map]
  refine List.map_congr_left fun slot _ => ?_
  simp only [Function.comp_apply]
  split <;> rfl

section Members
variable {slots : Slots} {members : List (String × Announced ε)} {name : String}
  {value : Announced ε} {values : List (Option FieldValue)}

/-- What slots hold in the end can be said of each of them for itself. -/
theorem forall₂_congr_of_mem {α β : Type} {r r' : α → β → Prop} {l : List α} {l' : List β}
    (h : ∀ a ∈ l, ∀ b, r a b ↔ r' a b) : List.Forall₂ r l l' ↔ List.Forall₂ r' l l' := by
  induction l generalizing l' with
  | nil => simp
  | cons a l ih =>
    obtain ⟨ha, hl⟩ := List.forall_mem_cons.mp h
    cases l' with
    | nil => simp
    | cons b l' => rw [List.forall₂_cons, List.forall₂_cons, ha b, ih hl]

theorem exists_of_forall₂ {α β : Type} {r : α → β → Prop} {l : List α} {l' : List β}
    (h : List.Forall₂ r l l') {a : α} (ha : a ∈ l) : ∃ b, r a b := by
  induction h with
  | nil => cases ha
  | cons hr _ ih =>
    rcases List.mem_cons.mp ha with rfl | ha
    · exact ⟨_, hr⟩
    · exact ih ha

theorem completes_nil : Completes slots ([] : List (String × Announced ε)) values ↔
    List.Forall₂ (fun slot value => SlotHolds slot (none : Option (Announced ε)) value)
      slots values :=
  ⟨fun h => h.values, fun h => ⟨by simp, by simp, h⟩⟩

/-- A member that is no field is passed over. -/
theorem completes_cons_other (h : name ∉ slots.map (·.1.name)) :
    Completes slots ((name, value) :: members) values ↔
      value.pass = .ok () ∧ Completes slots members values := by
  have hother : ∀ slot ∈ slots, slot.1.name ≠ name := fun slot hslot heq =>
    h (heq ▸ List.mem_map_of_mem hslot)
  have honce : ∀ slot ∈ slots, (((name, value) :: members).map Prod.fst).count slot.1.name =
      (members.map Prod.fst).count slot.1.name := fun slot hslot => by
    rw [List.map_cons, List.count_cons_of_ne (hother slot hslot).symm]
  have hlookup : ∀ slot ∈ slots, ((name, value) :: members).lookup slot.1.name =
      members.lookup slot.1.name := fun slot hslot => by
    rw [List.lookup_cons, beq_false_of_ne (hother slot hslot)]
  have hvalues : List.Forall₂ (fun slot v => SlotHolds slot
        (((name, value) :: members).lookup slot.1.name) v) slots values ↔
      List.Forall₂ (fun slot v => SlotHolds slot (members.lookup slot.1.name) v) slots values :=
    forall₂_congr_of_mem fun slot hslot v => by rw [hlookup slot hslot]
  constructor
  · rintro ⟨h1, h2, h3⟩
    refine ⟨h2 _ List.mem_cons_self h, fun slot hslot => honce slot hslot ▸ h1 slot hslot, ?_,
      hvalues.mp h3⟩
    exact fun m hm => h2 m (List.mem_cons_of_mem _ hm)
  · rintro ⟨hpass, h1, h2, h3⟩
    refine ⟨fun slot hslot => (honce slot hslot).symm ▸ h1 slot hslot, ?_, hvalues.mpr h3⟩
    exact List.forall_mem_cons.mpr ⟨fun _ => hpass, h2⟩

/-- A member may not give what has been given. -/
theorem not_completes_cons_given {field : RecordField} {given : Option FieldValue}
    (h : (field, some given) ∈ slots) :
    ¬ Completes slots ((field.name, value) :: members) values := by
  intro hc
  have hcount := hc.once _ h
  simp at hcount

/-- A member that gives a field fills its slot. -/
theorem completes_cons_field (hnames : (slots.map (·.1.name)).Nodup) {field : RecordField}
    (h : (field, none) ∈ slots) :
    Completes slots ((field.name, value) :: members) values ↔
      ∃ v, value.toFieldValue field = .ok v ∧
        Completes (slots.set field.name v) members values := by
  -- The slot of the field is the only one with its name.
  have hslot : ∀ slot ∈ slots, slot.1.name = field.name → slot = (field, none) :=
    fun slot hslot heq => List.inj_on_of_nodup_map hnames hslot h heq
  have honce : ∀ v, (∀ slot ∈ slots, (((field.name, value) :: members).map Prod.fst).count
        slot.1.name ≤ if slot.2.isSome then 0 else 1) ↔
      ∀ slot ∈ slots.set field.name v, (members.map Prod.fst).count slot.1.name ≤
        if slot.2.isSome then 0 else 1 := by
    intro v
    rw [Slots.set, List.forall_mem_map]
    refine forall₂_congr fun slot hmem => ?_
    rw [List.map_cons, List.count_cons]
    by_cases hname : slot.1.name = field.name
    · rw [if_pos hname, hslot slot hmem hname]
      simp
    · rw [if_neg hname]
      simp [Ne.symm hname]
  have hvalues : ∀ v, value.toFieldValue field = .ok v →
      (List.Forall₂ (fun slot v => SlotHolds slot
          (((field.name, value) :: members).lookup slot.1.name) v) slots values ↔
        List.Forall₂ (fun slot v => SlotHolds slot (members.lookup slot.1.name) v)
          (slots.set field.name v) values) := by
    intro v hv
    rw [Slots.set, List.forall₂_map_left_iff]
    refine forall₂_congr_of_mem fun slot hmem w => ?_
    by_cases hname : slot.1.name = field.name
    · rw [if_pos hname, hslot slot hmem hname]
      simp [SlotHolds, RecordField.Holds, hv, eq_comm]
    · rw [if_neg hname, List.lookup_cons, beq_false_of_ne hname]
  have hpassed : ∀ v, (∀ m ∈ (field.name, value) :: members, m.1 ∉ slots.map (·.1.name) →
        m.2.pass = .ok ()) ↔
      ∀ m ∈ members, m.1 ∉ (slots.set field.name v).map (·.1.name) → m.2.pass = .ok () := by
    intro v
    have hfield : field.name ∈ slots.map (·.1.name) := List.mem_map.mpr ⟨_, h, rfl⟩
    rw [names_set, List.forall_mem_cons]
    exact and_iff_right fun hnot => absurd hfield hnot
  constructor
  · rintro ⟨h1, h2, h3⟩
    obtain ⟨v, hv⟩ := exists_of_forall₂ h3 h
    have hv : value.toFieldValue field = .ok v := by
      simpa [SlotHolds, RecordField.Holds] using hv
    exact ⟨v, hv, (honce v).mp h1, (hpassed v).mp h2, (hvalues v hv).mp h3⟩
  · rintro ⟨v, hv, h1, h2, h3⟩
    exact ⟨(honce v).mpr h1, (hpassed v).mpr h2, (hvalues v hv).mpr h3⟩

end Members

/-! ## Readers -/

section Readers
variable {slots : Slots} {values : List (Option FieldValue)}

theorem find?_eq_none {name : String} (h : slots.find? name = none) :
    name ∉ slots.map (·.1.name) := by
  intro hmem
  obtain ⟨slot, hslot, hname⟩ := List.mem_map.mp hmem
  exact absurd (decide_eq_true hname) (List.find?_eq_none.mp h slot hslot)

theorem find?_eq_some {name : String} {slot : RecordField × Option (Option FieldValue)}
    (h : slots.find? name = some slot) : slot ∈ slots ∧ slot.1.name = name :=
  ⟨List.mem_of_find?_eq_some h, by simpa using List.find?_some h⟩

/-- **Entries are read into slots just when they give what is missing in them.** -/
theorem toFields_eq_ok {entries : Entries ε} (hnames : (slots.map (·.1.name)).Nodup) :
    entries.toFields slots = .ok values ↔
      ∃ members, entries.members? = some members ∧ Completes slots members values := by
  induction entries using Entries.members?.induct generalizing slots with
  | case1 closing =>
    rw [Entries.toFields, finish_eq_ok, ← completes_nil]
    simp [Entries.members?]
  | case2 unread key afterKey value rest name hkey ih =>
    rw [Entries.toFields, hkey, ok_bind, Entries.members?, hkey]
    simp only [Option.map_eq_some_iff]
    cases hfound : slots.find? name with
    | none =>
      have hother := find?_eq_none hfound
      dsimp only
      rw [bind_eq_ok]
      simp only [ih hnames]
      constructor
      · rintro ⟨_, hpass, members, hmembers, hc⟩
        exact ⟨_, ⟨members, hmembers, rfl⟩, (completes_cons_other hother).mpr ⟨hpass, hc⟩⟩
      · rintro ⟨_, ⟨members, hmembers, rfl⟩, hc⟩
        obtain ⟨hpass, hc⟩ := (completes_cons_other hother).mp hc
        exact ⟨(), hpass, members, hmembers, hc⟩
    | some slot =>
      obtain ⟨field, given⟩ := slot
      obtain ⟨hslot, rfl⟩ := find?_eq_some hfound
      cases given with
      | some given =>
        refine iff_of_false (fun h => nomatch h) ?_
        rintro ⟨_, ⟨members, -, rfl⟩, hc⟩
        exact not_completes_cons_given hslot hc
      | none =>
        dsimp only
        rw [bind_eq_ok]
        constructor
        · rintro ⟨v, hv, hrest⟩
          obtain ⟨members, hmembers, hc⟩ := (ih (by rwa [names_set])).mp hrest
          exact ⟨_, ⟨members, hmembers, rfl⟩, (completes_cons_field hnames hslot).mpr ⟨v, hv, hc⟩⟩
        · rintro ⟨_, ⟨members, hmembers, rfl⟩, hc⟩
          obtain ⟨v, hv, hc⟩ := (completes_cons_field hnames hslot).mp hc
          exact ⟨v, hv, (ih (by rwa [names_set])).mpr ⟨members, hmembers, hc⟩⟩
  | case3 unread key afterKey value rest error hkey =>
    rw [Entries.toFields, hkey, Entries.members?, hkey]
    simp
  | case4 reading passing unread => simp [Entries.toFields, Entries.members?]

theorem upTo?_done (count closing : Nat) :
    (Items.done closing : Items ε).upTo? count = some [] := by
  cases count <;> rfl

theorem fillInOrder_cons {field : RecordField} {fields : List RecordField}
    {items : List (Announced ε)} :
    FillInOrder (field :: fields) items values ↔
      ∃ v vs, field.Holds items.head? v ∧ FillInOrder fields items.tail vs ∧ values = v :: vs := by
  constructor
  · rintro (_ | ⟨hfirst, hrest⟩)
    exact ⟨_, _, hfirst, hrest, rfl⟩
  · rintro ⟨v, vs, hfirst, hrest, rfl⟩
    exact .cons hfirst hrest

/-- Items are read as fields just when they give the fields in their order. -/
theorem items_toFields_eq_ok {schema : Schema} {count : Nat} {fields : List RecordField}
    {items : Items ε} :
    items.toFields schema count fields = .ok values ↔
      ∃ found, items.upTo? fields.length = some found ∧ FillInOrder fields found values := by
  induction fields generalizing count items values with
  | nil =>
    rw [Items.toFields, bind_eq_ok, List.length_nil, Items.upTo?]
    simp only [checked_eq_ok, pure_eq_ok, Except.ok.injEq]
    constructor
    · rintro ⟨_, hunread, rfl⟩
      exact ⟨[], by rw [hunread]; rfl, .nil⟩
    · rintro ⟨found, hfound, hfill⟩
      cases hfill
      refine ⟨(), ?_, rfl⟩
      cases hunread : items.unread? with
      | none => rfl
      | some f =>
        rw [hunread] at hfound
        cases hfound
  | cons field fields ih =>
    simp only [fillInOrder_cons]
    cases items with
    | done closing =>
      rw [Items.toFields, upTo?_done]
      cases hrequired : field.required with
      | true =>
        rw [if_pos rfl]
        refine iff_of_false (fun h => nomatch h) ?_
        rintro ⟨found, hfound, v, vs, hfirst, -⟩
        cases hfound
        exact nomatch hrequired.symm.trans hfirst.1
      | false =>
        rw [if_neg Bool.false_ne_true, bind_eq_ok]
        simp only [ih, upTo?_done, pure_eq_ok, Except.ok.injEq]
        constructor
        · rintro ⟨vs, ⟨found, hfound, hrest⟩, rfl⟩
          cases hfound
          exact ⟨[], rfl, none, vs, ⟨hrequired, rfl⟩, hrest, rfl⟩
        · rintro ⟨found, hfound, v, vs, hfirst, hrest, rfl⟩
          cases hfound
          exact ⟨vs, ⟨[], rfl, hrest⟩, by rw [hfirst.2]⟩
    | next unread item rest =>
      rw [Items.toFields, List.length_cons, Items.upTo?, bind_eq_ok]
      simp only [bind_eq_ok, ih, Option.map_eq_some_iff, pure_eq_ok, Except.ok.injEq]
      constructor
      · rintro ⟨v, hv, vs, ⟨found, hfound, hrest⟩, rfl⟩
        exact ⟨_, ⟨found, hfound, rfl⟩, v, vs, hv, hrest, rfl⟩
      · rintro ⟨_, ⟨found, hfound, rfl⟩, v, vs, hv, hrest, rfl⟩
        exact ⟨v, hv, vs, ⟨found, hfound, hrest⟩, rfl⟩
    | broken reading passing unread => simp [Items.toFields, Items.upTo?]

/-- At first every slot is empty, and members have to give all fields. -/
theorem completes_empty {fields : List RecordField} {members : List (String × Announced ε)} :
    Completes (fields.map fun field => (field, none)) members values ↔
      Fills fields members values := by
  have hnames : (fields.map fun field => (field, none) : Slots).map (·.1.name) =
      fields.map RecordField.name := by
    rw [List.map_map]
    rfl
  constructor
  · rintro ⟨honce, hpassed, hvalues⟩
    rw [List.forall_mem_map] at honce
    rw [hnames] at hpassed
    exact ⟨honce, hpassed, List.forall₂_map_left_iff.mp hvalues⟩
  · rintro ⟨honce, hpassed, hvalues⟩
    refine ⟨List.forall_mem_map.mpr honce, ?_, List.forall₂_map_left_iff.mpr hvalues⟩
    rwa [hnames]

/-- **A record is read from just the values that tell one**, and has the fields that they give. -/
theorem toRecord_eq_ok {schema : Schema} (hnames : (schema.fields.map RecordField.name).Nodup)
    {a : Announced ε} :
    a.toRecord schema = .ok values ↔ a.IsRecord schema.fields values := by
  cases a with
  | sequence opening limit items =>
    rw [toRecord, bind_eq_ok]
    simp only [checked_eq_ok, items_toFields_eq_ok]
    constructor
    · rintro ⟨_, rfl, found, hfound, hfill⟩
      exact .sequence hfound hfill
    · rintro (_ | ⟨hfound, hfill⟩)
      exact ⟨(), rfl, _, hfound, hfill⟩
  | mapping opening limit entries =>
    have hslots : ((schema.fields.map fun field => (field, none) : Slots).map
        (·.1.name)).Nodup := by
      rw [List.map_map]
      exact hnames
    rw [toRecord, bind_eq_ok]
    simp only [checked_eq_ok, toFields_eq_ok hslots, completes_empty]
    constructor
    · rintro ⟨_, rfl, members, hmembers, hfill⟩
      exact .mapping hmembers hfill
    · rintro (⟨hmembers, hfill⟩ | _)
      exact ⟨(), rfl, _, hmembers, hfill⟩
  | token | unreadable | present | wrapped | broken =>
    exact iff_of_false (fun h => nomatch h) (fun h => nomatch h)

end Readers

/-! ## Fields that may be null -/

/-- A value that is there, for a reader of optional values as for any other one. -/
def Definite : Announced ε → Prop
  | .token .null _ | .token .unit _ | .token .absent _ | .present _ => False
  | _ => True

theorem toOption_of_definite {α : Type} {read : Announced ε → Except (ReadError ε) α}
    {a : Announced ε} (h : a.Definite) : a.toOption read = some <$> read a := by
  cases a with
  | token t ending =>
    cases t with
    | null | unit | absent => exact h.elim
    | _ => rfl
  | present inner => exact h.elim
  | _ => rfl

/-- A value stands for one of the fields of a record: under its name in a mapping, or in its place
in a list. -/
inductive StandsFor (fields : List RecordField) : Announced ε → Announced ε → Prop
  | mapping {opening limit entries members name value} : entries.members? = some members →
      (name, value) ∈ members → name ∈ fields.map RecordField.name →
      StandsFor fields value (.mapping opening limit entries)
  | sequence {opening limit items found value} : items.upTo? fields.length = some found →
      value ∈ found → StandsFor fields value (.sequence opening limit items)

end Announced

/-- The kind of fields that may hold a value. -/
def FieldValue.kind : FieldValue → FieldKind
  | text _ => .text
  | bool _ => .bool

namespace RecordField

/-- The same field, for which null may or may not stand. -/
def withNull (nullable : Bool) (field : RecordField) : RecordField := { field with nullable }

end RecordField

namespace Announced
section WithNull
variable {nullable : Bool} {field : RecordField} {fields : List RecordField}
  {values : List (Option FieldValue)}

theorem toFieldValue_of_definite {a : Announced ε} (h : a.Definite) :
    a.toFieldValue (field.withNull nullable) = some <$> a.toKind field.kind := by
  unfold toFieldValue
  split
  · exact toOption_of_definite h
  · rfl

/-- Whether null may stand for a field makes no difference to what is definite. -/
theorem holds_withNull {found : Option (Announced ε)} {value : Option FieldValue}
    (h : ∀ a ∈ found, a.Definite) :
    (field.withNull nullable).Holds found value ↔ field.Holds found value := by
  cases found with
  | none => exact Iff.rfl
  | some a =>
    have hplain := @toFieldValue_of_definite ε field.nullable field a (h a rfl)
    have hnull := @toFieldValue_of_definite ε nullable field a (h a rfl)
    have hboth : a.toFieldValue (field.withNull nullable) = a.toFieldValue field :=
      hnull.trans hplain.symm
    simp only [RecordField.Holds, hboth]

theorem names_withNull :
    (fields.map (RecordField.withNull nullable)).map RecordField.name =
      fields.map RecordField.name := by
  rw [List.map_map]
  rfl

theorem fills_withNull {members : List (String × Announced ε)}
    (h : ∀ m ∈ members, m.1 ∈ fields.map RecordField.name → m.2.Definite) :
    Fills (fields.map (RecordField.withNull nullable)) members values ↔
      Fills fields members values := by
  have hvalues : ∀ field ∈ fields, ∀ value,
      (field.withNull nullable).Holds (members.lookup field.name) value ↔
        field.Holds (members.lookup field.name) value := by
    refine fun field hfield value => holds_withNull fun a ha => ?_
    obtain ⟨front, rest, hmembers, -⟩ := List.lookup_eq_some_iff.mp ha
    exact h (field.name, a) (by simp [hmembers]) (List.mem_map_of_mem hfield)
  constructor
  · rintro ⟨honce, hpassed, hfound⟩
    rw [List.forall_mem_map] at honce
    rw [names_withNull] at hpassed
    exact ⟨honce, hpassed,
      (forall₂_congr_of_mem hvalues).mp (List.forall₂_map_left_iff.mp hfound)⟩
  · rintro ⟨honce, hpassed, hfound⟩
    refine ⟨List.forall_mem_map.mpr honce, ?_,
      List.forall₂_map_left_iff.mpr ((forall₂_congr_of_mem hvalues).mpr hfound)⟩
    rwa [names_withNull]

theorem fillInOrder_withNull {items : List (Announced ε)} (h : ∀ item ∈ items, item.Definite) :
    FillInOrder (fields.map (RecordField.withNull nullable)) items values ↔
      FillInOrder fields items values := by
  induction fields generalizing items values with
  | nil => exact Iff.rfl
  | cons field fields ih =>
    have hfirst : ∀ value, (field.withNull nullable).Holds items.head? value ↔
        field.Holds items.head? value :=
      fun value => holds_withNull fun a ha => h a (List.mem_of_mem_head? ha)
    have hrest : ∀ item ∈ items.tail, item.Definite :=
      fun item hitem => h item (List.mem_of_mem_tail hitem)
    rw [List.map_cons, fillInOrder_cons, fillInOrder_cons]
    simp only [hfirst, ih hrest]

/-- **Whether null may stand for the fields of a record makes no difference where only definite
values do.** -/
theorem isRecord_withNull {a : Announced ε}
    (h : ∀ v : Announced ε, v.StandsFor fields a → v.Definite) :
    a.IsRecord (fields.map (RecordField.withNull nullable)) values ↔ a.IsRecord fields values := by
  constructor
  · rintro (⟨hmembers, hfill⟩ | ⟨hfound, hfill⟩)
    · exact .mapping hmembers
        ((fills_withNull fun m hm hname => h m.2 (.mapping hmembers hm hname)).mp hfill)
    · rw [List.length_map] at hfound
      exact .sequence hfound
        ((fillInOrder_withNull fun item hitem => h item (.sequence hfound hitem)).mp hfill)
  · rintro (⟨hmembers, hfill⟩ | ⟨hfound, hfill⟩)
    · exact .mapping hmembers
        ((fills_withNull fun m hm hname => h m.2 (.mapping hmembers hm hname)).mpr hfill)
    · refine .sequence (by rwa [List.length_map]) ?_
      exact (fillInOrder_withNull fun item hitem => h item (.sequence hfound hitem)).mpr hfill

end WithNull

/-! ## Kinds -/

section Kinds
variable {field : RecordField} {fields : List RecordField} {value : Option FieldValue}
  {values : List (Option FieldValue)} {a : Announced ε}

theorem kind_of_toKind {kind : FieldKind} {v : FieldValue} (h : a.toKind kind = .ok v) :
    v.kind = kind := by
  cases kind with
  | text =>
    obtain ⟨s, -, rfl⟩ := map_eq_ok.mp h
    rfl
  | bool =>
    obtain ⟨b, -, rfl⟩ := map_eq_ok.mp h
    rfl

theorem exists_of_toOption {α : Type} {read : Announced ε → Except (ReadError ε) α} {v : α}
    (h : a.toOption read = .ok (some v)) : ∃ inner, read inner = .ok v := by
  by_cases hdefinite : a.Definite
  · rw [toOption_of_definite hdefinite] at h
    obtain ⟨w, hw, heq⟩ := map_eq_ok.mp h
    exact ⟨a, Option.some.inj heq ▸ hw⟩
  · cases a with
    | present inner =>
      obtain ⟨w, hw, heq⟩ := map_eq_ok.mp h
      exact ⟨inner, Option.some.inj heq ▸ hw⟩
    | token t ending =>
      cases t with
      | null | unit | absent => cases h
      | _ => exact absurd trivial hdefinite
    | _ => exact absurd trivial hdefinite

theorem kind_of_toFieldValue (h : a.toFieldValue field = .ok value) :
    ∀ v ∈ value, v.kind = field.kind := by
  rintro v rfl
  unfold toFieldValue at h
  split at h
  · obtain ⟨inner, hinner⟩ := exists_of_toOption h
    exact kind_of_toKind hinner
  · obtain ⟨w, hw, heq⟩ := map_eq_ok.mp h
    exact kind_of_toKind (Option.some.inj heq ▸ hw)

theorem kind_of_holds {found : Option (Announced ε)} (h : field.Holds found value) :
    ∀ v ∈ value, v.kind = field.kind := by
  cases found with
  | none =>
    rw [h.2]
    exact fun _ hv => nomatch hv
  | some a => exact kind_of_toFieldValue h

theorem kinds_of_fillInOrder {items : List (Announced ε)} (h : FillInOrder fields items values) :
    List.Forall₂ (fun field value => ∀ v ∈ value, v.kind = field.kind) fields values := by
  induction h with
  | nil => exact .nil
  | cons hfirst _ ih => exact .cons (kind_of_holds hfirst) ih

/-- What a record's fields hold is of their kinds. -/
theorem kinds_of_isRecord (h : a.IsRecord fields values) :
    List.Forall₂ (fun field value => ∀ v ∈ value, v.kind = field.kind) fields values := by
  rcases h with ⟨-, hfill⟩ | ⟨-, hfill⟩
  · exact hfill.values.imp fun _ _ => kind_of_holds
  · exact kinds_of_fillInOrder hfill

end Kinds
end Announced
end DepositForm
