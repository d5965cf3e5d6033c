import DepositForm.Announced.Datum
import DepositForm.Proofs.Document.Repeated

/-! # What a datum means as a tree

A datum of the general data model either means a tree or is refused. `Means` has a rule for every
kind of datum, `Refuses` says which error it is refused with, and `Supported` says without trees or
errors which data are not refused: those in which everything that is read can be used. What follows
a key of dates is not read, so it need not be.

Reading does as these rules say (`read_as_meant`): it gives a tree just when the datum means it, and
an error just when the datum is refused with it. Both statements are inductions on the datum, with
items and entries at its side; entries may come after others, which have been put together already.
-/
namespace DepositForm

variable {ε α β : Type}

namespace Datum

/-! ## What a datum holds -/

/-- The integer that a datum of at most 64 bits holds. -/
def integer? : Datum → Option Int
  | int8 i => some i.toInt
  | int16 i => some i.toInt
  | int32 i => some i.toInt
  | int64 i => some i.toInt
  | word8 u => some u.toNat
  | word16 u => some u.toNat
  | word32 u => some u.toNat
  | word64 u => some u.toNat
  | _ => none

/-- The float that a datum holds; a narrow one is the same number at 64 bits. -/
def float? : Datum → Option Float
  | float32 x => some x.toFloat
  | float64 x => some x
  | _ => none

/-- A datum that can be had where a text is wanted. -/
inductive Spells : Datum → String → Prop
  | char (c : Char) : Spells (char c) c.toString
  | text (s : String) : Spells (text s) s
  | bytes (s : String) : Spells (bytes s.toUTF8) s

/-- How an error tells what it found, where that can never be a text. -/
def found? : Datum → Option Found
  | unit => some (.token .unit)
  | absent => some (.token .absent)
  | present _ => some .present
  | wrapped _ => some .wrapped
  | bool b => some (.token (.bool b))
  | int8 i => some (.token (.signed i.toInt64))
  | int16 i => some (.token (.signed i.toInt64))
  | int32 i => some (.token (.signed i.toInt64))
  | int64 i => some (.token (.signed i))
  | int128 i => some (.token (.wideSigned i.toInt))
  | word8 u => some (.token (.unsigned u.toUInt64))
  | word16 u => some (.token (.unsigned u.toUInt64))
  | word32 u => some (.token (.unsigned u.toUInt64))
  | word64 u => some (.token (.unsigned u))
  | word128 u => some (.token (.wideUnsigned u.toNat))
  | float32 x => some (.token (.float x.toFloat))
  | float64 x => some (.token (.float x))
  | sequence _ => some .sequence
  | mapping _ => some .mapping
  | char _ | text _ | bytes _ => none

/-- The error where a text is wanted and the datum is none. -/
inductive Misspelt : Datum → ReadError ε → Prop
  | bytes {b} : (∀ s, ¬ Spells (bytes b) s) → Misspelt (bytes b) .notText
  | other {d found} : d.found? = some found → Misspelt d (.mismatch found .text 0)

/-- Entries that begin with the key of dates. -/
def Dated (entries : List (Datum × Datum)) : Prop :=
  ∃ key value rest, entries = (key, value) :: rest ∧ Spells key dateKey

/-! ## The rules -/

mutual
/-- What a datum means as a tree. -/
inductive Means : Datum → Node → Prop
  | unit : Means unit (.leaf .null)
  | absent : Means absent (.leaf .null)
  | present {inner n} : Means inner n → Means (present inner) n
  | bool (b) : Means (bool b) (.leaf (.bool b))
  | integer {d i} : d.integer? = some i.toInt → Means d (.leaf (.integer i))
  /-- Integers beyond the signed word, and only those. -/
  | unsigned {d u} : d.integer? = some (u.toNat : Int) → signedLimit ≤ u.toNat →
      Means d (.leaf (.unsigned u))
  | float {d x} : d.float? = some x → Means d (.leaf (.float x))
  | char (c) : Means (char c) (.leaf (.text c.toString))
  | text (s) : Means (text s) (.leaf (.text s))
  | sequence {items ns} : MeansItems items ns → Means (sequence items) (.sequence ns)
  /-- A date is the text of its first entry, whatever comes after it. -/
  | date {key value rest s} : Spells key dateKey → Spells value s →
      Means (mapping ((key, value) :: rest)) (.leaf (.text s))
  | mapping {entries es} : ¬ Dated entries → MeansEntries entries es →
      Means (mapping entries) (.mapping (lastGiven es))

inductive MeansItems : List Datum → List Node → Prop
  | nil : MeansItems [] []
  | cons {d rest n ns} : Means d n → MeansItems rest ns → MeansItems (d :: rest) (n :: ns)

/-- The entries as they come, repeated keys and all. -/
inductive MeansEntries : List (Datum × Datum) → List (String × Node) → Prop
  | nil : MeansEntries [] []
  | cons {key value rest k n es} : Spells key k → Means value n → MeansEntries rest es →
      MeansEntries ((key, value) :: rest) ((k, n) :: es)
end

mutual
/-- The error that a datum is refused with: that of the first part, in the order of reading, that
cannot be used. -/
inductive Refuses : Datum → ReadError ε → Prop
  | present {inner e} : Refuses inner e → Refuses (present inner) e
  | wrapped (inner) : Refuses (wrapped inner) (.mismatch .wrapped .node 0)
  | int128 (i) : Refuses (int128 i) (.mismatch (.token (.wideSigned i.toInt)) .node 0)
  | word128 (u) : Refuses (word128 u) (.mismatch (.token (.wideUnsigned u.toNat)) .node 0)
  | bytes (b) : Refuses (bytes b) (.mismatch (.token (.bytes b)) .node 0)
  | sequence {items e} : RefusesItems items e → Refuses (sequence items) e
  | date {key value rest e} : Spells key dateKey → Misspelt value e →
      Refuses (mapping ((key, value) :: rest)) e
  | mapping {entries e} : ¬ Dated entries → RefusesEntries entries e →
      Refuses (mapping entries) e

inductive RefusesItems : List Datum → ReadError ε → Prop
  | here {d rest e} : Refuses d e → RefusesItems (d :: rest) e
  | later {d rest n e} : Means d n → RefusesItems rest e → RefusesItems (d :: rest) e

inductive RefusesEntries : List (Datum × Datum) → ReadError ε → Prop
  | key {key value rest e} : Misspelt key e → RefusesEntries ((key, value) :: rest) e
  | value {key value rest k e} : Spells key k → Refuses value e →
      RefusesEntries ((key, value) :: rest) e
  | later {key value rest k n e} : Spells key k → Means value n → RefusesEntries rest e →
      RefusesEntries ((key, value) :: rest) e
end

mutual
/-- Everything that is read can be used: there are no bytes, wrappings or integers of 128 bits for
values, and keys are texts, as is the value under a key of dates that comes first. -/
def Supported : Datum → Prop
  | wrapped _ | int128 _ | word128 _ | bytes _ => False
  | present inner => inner.Supported
  | sequence items => ItemsSupported items
  | mapping entries =>
    (∃ key value rest s, entries = (key, value) :: rest ∧ Spells key dateKey ∧ Spells value s) ∨
      ¬ Dated entries ∧ EntriesSupported entries
  | _ => True

def ItemsSupported : List Datum → Prop
  | [] => True
  | d :: rest => d.Supported ∧ ItemsSupported rest

def EntriesSupported : List (Datum × Datum) → Prop
  | [] => True
  | (key, value) :: rest => (∃ k, Spells key k) ∧ value.Supported ∧ EntriesSupported rest
end

/-! ## Texts -/

/-- Bytes hold a text just when they are those of the text. -/
theorem fromUTF8?_eq_some {b : ByteArray} {s : String} :
    String.fromUTF8? b = some s ↔ b = s.toUTF8 := by
  constructor
  · intro h
    unfold String.fromUTF8? at h
    split at h
    · cases h
      rfl
    · cases h
  · rintro rfl
    exact dif_pos s.isValidUTF8

theorem spells_bytes {b : ByteArray} {s : String} :
    Spells (bytes b) s ↔ String.fromUTF8? b = some s := by
  rw [fromUTF8?_eq_some]
  constructor
  · rintro ⟨⟩
    rfl
  · rintro rfl
    exact .bytes s

/-- A datum gives an error where a text is wanted, unless it spells one. -/
theorem toText_of_found {d : Datum} {found : Found} (h : d.found? = some found) :
    (d.announce : Announced ε).toText = .error (.mismatch found .text 0) := by
  cases d <;> cases h <;> rfl

theorem toText_of_spells {d : Datum} {s : String} (h : Spells d s) :
    (d.announce : Announced ε).toText = .ok s := by
  cases h with
  | char c => rfl
  | text s => rfl
  | bytes s =>
    have hbytes : String.fromUTF8? s.toUTF8 = some s := fromUTF8?_eq_some.mpr rfl
    rw [announce, Announced.toText, hbytes]

theorem toText_of_misspelt {d : Datum} {e : ReadError ε} (h : Misspelt d e) :
    d.announce.toText = .error e := by
  cases h with
  | bytes hnot =>
    rename_i b
    rw [announce, Announced.toText]
    cases hb : String.fromUTF8? b with
    | none => rfl
    | some s => exact absurd (spells_bytes.mpr hb) (hnot s)
  | other hfound => exact toText_of_found hfound

/-- Every datum spells a text or does not. -/
theorem spells_or_misspelt (d : Datum) :
    (∃ s, Spells d s) ∨ ∃ e : ReadError ε, Misspelt d e := by
  cases hfound : d.found? with
  | some found => exact .inr ⟨_, .other hfound⟩
  | none =>
    cases d with
    | char c => exact .inl ⟨_, .char c⟩
    | text s => exact .inl ⟨_, .text s⟩
    | bytes b =>
      by_cases h : ∃ s, Spells (bytes b) s
      · exact .inl h
      · exact .inr ⟨_, .bytes (not_exists.mp h)⟩
    | _ => cases hfound

/-! ## Numbers -/

/-- An integer is announced as a word with its value. -/
theorem announce_of_integer? {d : Datum} {z : Int} (h : d.integer? = some z) :
    (∃ i : Int64, i.toInt = z ∧ d.announce = (.token (.signed i) 0 : Announced ε)) ∨
      ∃ u : UInt64, (u.toNat : Int) = z ∧ d.announce = (.token (.unsigned u) 0 : Announced ε) := by
  cases d <;> cases h
  case int8 i => exact .inl ⟨i.toInt64, Int8.toInt_toInt64 i, rfl⟩
  case int16 i => exact .inl ⟨i.toInt64, Int16.toInt_toInt64 i, rfl⟩
  case int32 i => exact .inl ⟨i.toInt64, Int32.toInt_toInt64 i, rfl⟩
  case int64 i => exact .inl ⟨i, rfl, rfl⟩
  case word8 u => exact .inr ⟨u.toUInt64, by simp, rfl⟩
  case word16 u => exact .inr ⟨u.toUInt64, by simp, rfl⟩
  case word32 u => exact .inr ⟨u.toUInt64, by simp, rfl⟩
  case word64 u => exact .inr ⟨u, rfl, rfl⟩

/-- Every integer of at most 64 bits means a leaf of one of the two words. -/
theorem means_of_integer? {d : Datum} {z : Int} (h : d.integer? = some z) : ∃ n, Means d n := by
  rcases announce_of_integer? (ε := Empty) h with ⟨i, rfl, -⟩ | ⟨u, rfl, -⟩
  · exact ⟨_, .integer h⟩
  · by_cases hlarge : signedLimit ≤ u.toNat
    · exact ⟨_, .unsigned h hlarge⟩
    · have hsigned : (Int64.ofNat u.toNat).toInt = u.toNat := by
        unfold signedLimit at hlarge
        rw [Int64.toInt_ofNat_of_lt (by omega)]
      exact ⟨_, .integer (h.trans (congrArg some hsigned.symm))⟩

theorem toNode_of_integer {d : Datum} {i : Int64} (h : d.integer? = some i.toInt) :
    (d.announce : Announced ε).toNode = .ok (.leaf (.integer i)) := by
  rcases announce_of_integer? (ε := ε) h with ⟨j, hj, hd⟩ | ⟨u, hu, hd⟩
  · rw [hd, Int64.toInt_inj.mp hj]
    rfl
  · have hword : u = UInt64.ofNat i.toInt.toNat := by
      rw [← hu, Int.toNat_natCast, UInt64.ofNat_toNat]
    have hleaf := Scalar.ofUnsigned_toNat (i := i) (by omega)
    rw [hd, Announced.toNode_token_eq_ok, Announced.leaf?, hword, hleaf]
    exact ⟨_, rfl, rfl⟩

theorem toNode_of_unsigned {d : Datum} {u : UInt64} (h : d.integer? = some (u.toNat : Int))
    (hlarge : signedLimit ≤ u.toNat) :
    (d.announce : Announced ε).toNode = .ok (.leaf (.unsigned u)) := by
  rcases announce_of_integer? (ε := ε) h with ⟨i, hi, -⟩ | ⟨v, hv, hd⟩
  · have hhigh : i.toInt < 2 ^ 63 := i.toInt_lt
    unfold signedLimit at hlarge
    omega
  · rw [hd, UInt64.toNat_inj.mp (Int.ofNat_inj.mp hv), Announced.toNode_token_eq_ok,
      Announced.leaf?, Scalar.ofUnsigned, if_neg (Nat.not_lt.mpr hlarge)]
    exact ⟨_, rfl, rfl⟩

theorem toNode_of_float {d : Datum} {x : Float} (h : d.float? = some x) :
    (d.announce : Announced ε).toNode = .ok (.leaf (.float x)) := by
  cases d <;> cases h <;> rfl

/-! ## Reading gives what is meant -/

theorem dated_of_spells {key value : Datum} {rest : List (Datum × Datum)}
    (h : Spells key dateKey) : Dated ((key, value) :: rest) :=
  ⟨key, value, rest, rfl, h⟩

mutual
theorem toNode_of_means : ∀ {d : Datum} {n : Node}, Means d n →
    (d.announce : Announced ε).toNode = .ok n
  | _, _, .unit | _, _, .absent | _, _, .bool _ | _, _, .char _ | _, _, .text _ => rfl
  | _, _, .present h => by
    rw [announce, Announced.toNode]
    exact toNode_of_means h
  | _, _, .integer h => toNode_of_integer h
  | _, _, .unsigned h hlarge => toNode_of_unsigned h hlarge
  | _, _, .float h => toNode_of_float h
  | _, _, .sequence h =>
    Announced.toNode_sequence_eq_ok.mpr ⟨rfl, _, toNodes_of_means h, rfl⟩
  | _, _, @Means.date _ _ rest _ hkey hvalue => by
    have hrest : (announceEntries rest : Announced.Entries ε).unread? = none := by
      cases rest <;> rfl
    exact Announced.toNode_mapping_next_eq_ok.mpr ⟨rfl, dateKey, toText_of_spells hkey,
      .inl ⟨rfl, _, toText_of_spells hvalue, hrest, rfl⟩⟩
  | _, _, .mapping _ .nil => rfl
  | _, _, .mapping hdated (.cons hkey hvalue hrest) => by
    have hother : _ ≠ dateKey := fun he => hdated (dated_of_spells (he ▸ hkey))
    exact Announced.toNode_mapping_next_eq_ok.mpr ⟨rfl, _, toText_of_spells hkey,
      .inr ⟨hother, _, _, toNode_of_means hvalue, entries_of_means _ hrest,
        congrArg Node.mapping (putAll_nil _).symm⟩⟩

theorem toNodes_of_means : ∀ {items : List Datum} {ns : List Node}, MeansItems items ns →
    (announceItems items : Announced.Items ε).toNodes = .ok ns
  | _, _, .nil => rfl
  | _, _, .cons h hrest =>
    Announced.Items.toNodes_next_eq_ok.mpr
      ⟨_, _, toNode_of_means h, toNodes_of_means hrest, rfl⟩

theorem entries_of_means : ∀ {entries : List (Datum × Datum)} {es : List (String × Node)}
    (soFar : List (String × Node)), MeansEntries entries es →
    (announceEntries entries : Announced.Entries ε).toNodes soFar = .ok (Node.putAll soFar es)
  | _, _, _, .nil => rfl
  | _, _, _, .cons hkey hvalue hrest =>
    Announced.Entries.toNodes_next_eq_ok.mpr
      ⟨_, _, toText_of_spells hkey, toNode_of_means hvalue, entries_of_means _ hrest⟩
end

/-! ## Reading refuses what is refused -/

mutual
theorem toNode_of_refuses : ∀ {d : Datum} {e : ReadError ε}, Refuses d e →
    d.announce.toNode = .error e
  | _, _, .wrapped _ | _, _, .int128 _ | _, _, .word128 _ | _, _, .bytes _ => rfl
  | _, _, .present h => by
    rw [announce, Announced.toNode]
    exact toNode_of_refuses h
  | _, _, .sequence h => by
    rw [announce, Announced.toNode, toNodes_of_refuses h]
    rfl
  | _, _, .date hkey hvalue => by
    rw [announce, announceEntries, Announced.toNode]
    simp [toText_of_spells hkey, toText_of_misspelt hvalue]
  | _, _, .mapping _ (.key hkey) => by
    rw [announce, announceEntries, Announced.toNode]
    simp [toText_of_misspelt hkey]
  | _, _, .mapping hdated (.value hkey hvalue) => by
    have hother : _ ≠ dateKey := fun he => hdated (dated_of_spells (he ▸ hkey))
    rw [announce, announceEntries, Announced.toNode]
    simp [toText_of_spells hkey, hother, toNode_of_refuses hvalue]
  | _, _, .mapping hdated (.later hkey hvalue hrest) => by
    have hother : _ ≠ dateKey := fun he => hdated (dated_of_spells (he ▸ hkey))
    rw [announce, announceEntries, Announced.toNode]
    simp [toText_of_spells hkey, hother, toNode_of_means hvalue, entries_of_refuses _ hrest]

theorem toNodes_of_refuses : ∀ {items : List Datum} {e : ReadError ε}, RefusesItems items e →
    (announceItems items).toNodes = .error e
  | _, _, .here h => by
    rw [announceItems, Announced.Items.toNodes, toNode_of_refuses h]
    rfl
  | _, _, .later h hrest => by
    rw [announceItems, Announced.Items.toNodes, toNode_of_means h, toNodes_of_refuses hrest]
    rfl

theorem entries_of_refuses : ∀ {entries : List (Datum × Datum)} {e : ReadError ε}
    (soFar : List (String × Node)), RefusesEntries entries e →
    (announceEntries entries).toNodes soFar = .error e
  | _, _, _, .key hkey => by
    rw [announceEntries, Announced.Entries.toNodes, toText_of_misspelt hkey]
    rfl
  | _, _, _, .value hkey hvalue => by
    rw [announceEntries, Announced.Entries.toNodes, toText_of_spells hkey, toNode_of_refuses hvalue]
    rfl
  | _, _, _, .later hkey hvalue hrest => by
    rw [announceEntries, Announced.Entries.toNodes, toText_of_spells hkey, toNode_of_means hvalue]
    exact entries_of_refuses _ hrest
end

/-! ## One or the other -/

theorem not_spells_of_misspelt {d : Datum} {e : ReadError ε} (h : Misspelt d e) (s : String) :
    ¬ Spells d s :=
  fun hs => nomatch (toText_of_spells (ε := ε) hs).symm.trans (toText_of_misspelt h)

mutual
/-- A datum whose parts can all be used means a tree, and every other one is refused. -/
theorem means_or_refuses : ∀ d : Datum, (d.Supported ∧ ∃ n, Means d n) ∨
    (¬ d.Supported ∧ ∃ e : ReadError ε, Refuses d e)
  | unit => .inl ⟨trivial, _, .unit⟩
  | absent => .inl ⟨trivial, _, .absent⟩
  | bool b => .inl ⟨trivial, _, .bool b⟩
  | char c => .inl ⟨trivial, _, .char c⟩
  | text s => .inl ⟨trivial, _, .text s⟩
  | float32 x => .inl ⟨trivial, _, .float rfl⟩
  | float64 x => .inl ⟨trivial, _, .float rfl⟩
  | int8 i => .inl ⟨trivial, means_of_integer? rfl⟩
  | int16 i => .inl ⟨trivial, means_of_integer? rfl⟩
  | int32 i => .inl ⟨trivial, means_of_integer? rfl⟩
  | int64 i => .inl ⟨trivial, means_of_integer? rfl⟩
  | word8 u => .inl ⟨trivial, means_of_integer? rfl⟩
  | word16 u => .inl ⟨trivial, means_of_integer? rfl⟩
  | word32 u => .inl ⟨trivial, means_of_integer? rfl⟩
  | word64 u => .inl ⟨trivial, means_of_integer? rfl⟩
  | int128 i => .inr ⟨id, _, .int128 i⟩
  | word128 u => .inr ⟨id, _, .word128 u⟩
  | bytes b => .inr ⟨id, _, .bytes b⟩
  | wrapped inner => .inr ⟨id, _, .wrapped inner⟩
  | present inner => by
    rcases means_or_refuses inner with ⟨hinner, n, hn⟩ | ⟨hinner, e, he⟩
    · exact .inl ⟨hinner, n, .present hn⟩
    · exact .inr ⟨hinner, e, .present he⟩
  | sequence items => by
    rcases items_mean_or_refuse items with ⟨hitems, ns, hns⟩ | ⟨hitems, e, he⟩
    · exact .inl ⟨hitems, _, .sequence hns⟩
    · exact .inr ⟨hitems, e, .sequence he⟩
  | mapping entries => by
    by_cases hdated : Dated entries
    · obtain ⟨key, value, rest, rfl, hkey⟩ := hdated
      rcases spells_or_misspelt (ε := ε) value with ⟨s, hs⟩ | ⟨e, he⟩
      · exact .inl ⟨.inl ⟨key, value, rest, s, rfl, hkey, hs⟩, _, .date hkey hs⟩
      · refine .inr ⟨?_, e, .date hkey he⟩
        rintro (⟨_, _, _, s, heq, -, hs⟩ | ⟨hnot, -⟩)
        · cases heq
          exact not_spells_of_misspelt he s hs
        · exact hnot (dated_of_spells hkey)
    · rcases entries_mean_or_refuse entries with ⟨hentries, es, hes⟩ | ⟨hentries, e, he⟩
      · exact .inl ⟨.inr ⟨hdated, hentries⟩, _, .mapping hdated hes⟩
      · refine .inr ⟨?_, e, .mapping hdated he⟩
        rintro (⟨_, _, _, s, rfl, hkey, -⟩ | ⟨-, hsupported⟩)
        · exact hdated (dated_of_spells hkey)
        · exact hentries hsupported

theorem items_mean_or_refuse : ∀ items : List Datum,
    (ItemsSupported items ∧ ∃ ns, MeansItems items ns) ∨
      (¬ ItemsSupported items ∧ ∃ e : ReadError ε, RefusesItems items e)
  | [] => .inl ⟨trivial, _, .nil⟩
  | d :: rest => by
    rcases means_or_refuses d with ⟨hd, n, hn⟩ | ⟨hd, e, he⟩
    · rcases items_mean_or_refuse rest with ⟨hrest, ns, hns⟩ | ⟨hrest, e, he⟩
      · exact .inl ⟨⟨hd, hrest⟩, _, .cons hn hns⟩
      · exact .inr ⟨fun h => hrest h.2, e, .later hn he⟩
    · exact .inr ⟨fun h => hd h.1, e, .here he⟩

theorem entries_mean_or_refuse : ∀ entries : List (Datum × Datum),
    (EntriesSupported entries ∧ ∃ es, MeansEntries entries es) ∨
      (¬ EntriesSupported entries ∧ ∃ e : ReadError ε, RefusesEntries entries e)
  | [] => .inl ⟨trivial, _, .nil⟩
  | (key, value) :: rest => by
    rcases spells_or_misspelt (ε := ε) key with ⟨k, hk⟩ | ⟨e, he⟩
    · rcases means_or_refuses value with ⟨hvalue, n, hn⟩ | ⟨hvalue, e, he⟩
      · rcases entries_mean_or_refuse rest with ⟨hrest, es, hes⟩ | ⟨hrest, e, he⟩
        · exact .inl ⟨⟨⟨k, hk⟩, hvalue, hrest⟩, _, .cons hk hn hes⟩
        · exact .inr ⟨fun h => hrest h.2.2, e, .later hk hn he⟩
      · exact .inr ⟨fun h => hvalue h.2.1, e, .value hk he⟩
    · refine .inr ⟨?_, e, .key he⟩
      rintro ⟨⟨k, hk⟩, -⟩
      exact not_spells_of_misspelt he k hk
end

/-- **Reading a datum gives a tree just when all that is read of it can be used, and then the tree
that it means; otherwise it gives the error of the first part that cannot.** -/
theorem read_as_meant (d : Datum) :
    ((∃ n, (d.announce : Announced ε).toNode = .ok n) ↔ d.Supported) ∧
    (∀ n, (d.announce : Announced ε).toNode = .ok n ↔ d.Means n) ∧
    ∀ e : ReadError ε, d.announce.toNode = .error e ↔ d.Refuses e := by
  rcases means_or_refuses (ε := ε) d with ⟨hsupported, n, hn⟩ | ⟨hsupported, e, he⟩
  · have hread := toNode_of_means (ε := ε) hn
    refine ⟨iff_of_true ⟨n, hread⟩ hsupported, fun n' => ⟨fun h => ?_, toNode_of_means⟩,
      fun e => ⟨fun h => ?_, toNode_of_refuses⟩⟩
    · cases hread.symm.trans h
      exact hn
    · cases hread.symm.trans h
  · have hread := toNode_of_refuses he
    refine ⟨iff_of_false (fun ⟨n, h⟩ => ?_) hsupported, fun n => ⟨fun h => ?_, toNode_of_means⟩,
      fun e' => ⟨fun h => ?_, toNode_of_refuses⟩⟩
    · cases hread.symm.trans h
    · cases hread.symm.trans h
    · cases hread.symm.trans h
      exact he

end Datum
end DepositForm
