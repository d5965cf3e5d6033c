import DepositForm.Proofs.Announced.Record
import DepositForm.Toml.Read
import Mathlib.Data.Option.Basic

/-! # What stands under the keys of a TOML text

TOML has no null: whatever a text sets a key to is there. A value is a token of some kind, or it is
no token at all, and what is put under a key without being set is a table.

Only the front of a text says what stands under its own keys. A header further down opens a table
that is put under one of these keys when it is closed, so the induction on the statements keeps two
things: what is closed is definite, and so is what is open as long as no header has been met
(`Draft.Definite`).
-/
namespace DepositForm.Toml

/-! ## Values -/

/-- An item that is there for every reader. -/
def Item.Definite (item : Item) : Prop := item.announce.Definite

theorem definite_integerToken {negative : Bool} {base : Nat} {digits : List Char} {t : Token}
    (h : integerToken? negative base digits = some t) : (Item.token t).Definite := by
  unfold integerToken? at h
  dsimp only at h
  split at h
  · cases h
    exact trivial
  · split at h
    · cases h
      exact trivial
    · cases h

theorem definite_readBased {base : Nat} {isDigit : Char → Bool} {cs rest : List Char} {t : Token}
    (h : readBased base isDigit cs = some (t, rest)) : (Item.token t).Definite := by
  simp only [readBased, Option.bind_eq_bind, Option.bind_eq_some_iff] at h
  obtain ⟨_, -, t', htoken, heq⟩ := h
  cases heq
  exact definite_integerToken htoken

theorem definite_readInteger {cs rest : List Char} {t : Token}
    (h : readInteger cs = some (t, rest)) : (Item.token t).Definite := by
  unfold readInteger at h
  split at h
  · exact definite_readBased h
  · exact definite_readBased h
  · exact definite_readBased h
  · simp only [Option.bind_eq_bind, Option.bind_eq_some_iff] at h
    obtain ⟨_, -, t', htoken, heq⟩ := h
    cases heq
    exact definite_integerToken htoken

theorem definite_floatToken {negative : Bool} {digits : List Char} {power : Int} {t : Token}
    (h : floatToken? negative digits power = some t) : (Item.token t).Definite := by
  unfold floatToken? at h
  dsimp only at h
  split at h
  · cases h
    exact trivial
  · split at h
    · cases h
    · cases h
      exact trivial

theorem definite_readFloat {cs rest : List Char} {t : Token}
    (h : readFloat cs = some (t, rest)) : (Item.token t).Definite := by
  unfold readFloat at h
  dsimp only at h
  split at h
  · cases h
    exact trivial
  · cases h
    exact trivial
  · simp only [Option.bind_eq_bind, Option.bind_eq_some_iff] at h
    obtain ⟨_, -, h⟩ := h
    -- With a fraction or without one, the token is made in the same way.
    split at h
    all_goals
      obtain ⟨_, -, h⟩ := Option.bind_eq_some_iff.mp h
      split at h
      · obtain ⟨t', htoken, heq⟩ := Option.bind_eq_some_iff.mp h
        cases heq
        exact definite_floatToken htoken
      · split at h
        · cases h
        · obtain ⟨t', htoken, heq⟩ := Option.bind_eq_some_iff.mp h
          cases heq
          exact definite_floatToken htoken

theorem definite_readPlain {cs rest : List Char} {item : Item}
    (h : readPlain cs = some (item, rest)) : item.Definite := by
  unfold readPlain at h
  split at h
  · cases h
    exact trivial
  · cases h
    exact trivial
  · split at h
    · cases h
      exact trivial
    · split at h
      · cases h
        exact trivial
      · obtain ⟨⟨t, more⟩, hnumber, heq⟩ := Option.bind_eq_some_iff.mp h
        cases heq
        rcases (Option.orElse_eq_some _ _ _).mp hnumber with hfloat | ⟨-, hinteger⟩
        · exact definite_readFloat hfloat
        · exact definite_readInteger hinteger

/-- A value between brackets is no token, and one without them is of some kind. -/
theorem definite_readValue {levels : Nat} {cs rest : List Char} {item : Item}
    (h : readValue levels cs = some (item, rest)) : item.Definite := by
  unfold readValue at h
  split at h
  · obtain ⟨_, -, heq⟩ := Option.bind_eq_some_iff.mp h
    cases heq
    exact trivial
  · obtain ⟨_, -, heq⟩ := Option.bind_eq_some_iff.mp h
    cases heq
    exact trivial
  · exact definite_readPlain h

theorem definite_readPair {levels : Nat} {cs rest : List Char} {key : Key} {item : Item}
    (h : readPair (readValue levels) cs = some (key, item, rest)) : item.Definite := by
  unfold readPair at h
  obtain ⟨_, -, h⟩ := Option.bind_eq_some_iff.mp h
  dsimp only at h
  split at h
  · obtain ⟨_, hvalue, heq⟩ := Option.bind_eq_some_iff.mp h
    cases heq
    exact definite_readValue hvalue
  · cases h

/-! ## Entries -/

namespace Entries

/-- What stands under keys is there for every reader. -/
def Definite (entries : Entries) : Prop := ∀ e ∈ entries, e.2.Definite

theorem definite_nil : Definite [] := fun _ he => nomatch he

variable {entries out : Entries}

theorem Definite.concat (h : entries.Definite) {key : String} {item : Item}
    (hitem : item.Definite) : Definite (entries ++ [(key, item)]) := by
  intro e he
  rcases List.mem_append.mp he with he | he
  · exact h e he
  · rw [List.mem_singleton.mp he]
    exact hitem

theorem Definite.replace (h : entries.Definite) (key : String) {item : Item}
    (hitem : item.Definite) : (entries.replace key item).Definite := by
  intro e he
  obtain ⟨e', he', rfl⟩ := List.mem_map.mp he
  split
  · exact hitem
  · exact h e' he'

theorem Definite.remove (h : entries.Definite) (key : String) : (entries.remove key).Definite :=
  fun e he => h e (List.mem_of_mem_filter he)

/-- An edit is made in the table at hand or somewhere below it, and then a table is put back. -/
theorem definite_edit {inline dotted : Bool} {f : Origin → Entries → Option Entries}
    (hf : ∀ origin {entries out}, f origin entries = some out → Definite entries → Definite out)
    {path : List String} {origin : Origin} (h : entries.Definite)
    (hedit : edit inline dotted f path origin entries = some out) : Definite out := by
  cases path with
  | nil => exact hf origin hedit h
  | cons key path =>
    unfold edit at hedit
    split at hedit
    · obtain ⟨_, -, heq⟩ := Option.bind_eq_some_iff.mp hedit
      cases heq
      exact h.concat trivial
    · split at hedit
      · cases hedit
      · obtain ⟨_, -, heq⟩ := Option.bind_eq_some_iff.mp hedit
        cases heq
        exact h.replace key trivial
    · split at hedit
      · cases hedit
      · obtain ⟨_, -, heq⟩ := Option.bind_eq_some_iff.mp hedit
        cases heq
        exact h.replace key trivial
    · cases hedit

theorem definite_add {inline : Bool} {key : Key} {item : Item} (h : entries.Definite)
    (hitem : item.Definite) (hadd : entries.add inline key item = some out) : Definite out := by
  refine definite_edit ?_ h hadd
  intro origin entries out hf h
  split at hf
  · cases hf
  · cases hf
    exact h.concat hitem

end Entries

/-! ## Texts -/

namespace Draft

/-- What stands under the text's own keys is there: what is closed, and what is open at the
front. -/
structure Definite (d : Draft) : Prop where
  closed : d.closed.Definite
  front : d.header = none → d.entries.Definite

theorem definite_close {d : Draft} {out : Entries} (h : d.Definite) (hclose : d.close = some out) :
    out.Definite := by
  unfold close at hclose
  split at hclose
  · rename_i hheader
    cases hclose
    exact h.front hheader
  · refine Entries.definite_edit ?_ h.closed hclose
    intro origin entries out hf h
    split at hf
    · split at hf
      · cases hf
        exact h.replace _ trivial
      · cases hf
    · cases hf
      exact h.concat trivial

theorem definite_openNext {key : Key} {closed : Entries} {d : Draft} (h : closed.Definite)
    (hopen : openNext key closed = some d) : d.Definite := by
  obtain ⟨closed', hedit, heq⟩ := Option.bind_eq_some_iff.mp hopen
  cases heq
  refine ⟨Entries.definite_edit ?_ h hedit, fun hheader => nomatch hheader⟩
  intro origin entries out hf h
  split at hf
  · cases hf
    exact h.concat trivial
  · cases hf
    exact h
  · cases hf

theorem definite_openTable {key : Key} {closed : Entries} {d : Draft} (h : closed.Definite)
    (hopen : openTable key closed = some d) : d.Definite := by
  obtain ⟨entries, -, hopen⟩ := Option.bind_eq_some_iff.mp hopen
  obtain ⟨closed', hedit, heq⟩ := Option.bind_eq_some_iff.mp hopen
  cases heq
  refine ⟨Entries.definite_edit ?_ h hedit, fun hheader => nomatch hheader⟩
  intro origin entries out hf h
  cases hf
  exact h.remove _

theorem definite_open {d d' : Draft} {header : Header} (h : d.Definite)
    (hopen : d.open? header = some d') : d'.Definite := by
  obtain ⟨closed, hclose, hopen⟩ := Option.bind_eq_some_iff.mp hopen
  have hclosed := definite_close h hclose
  split at hopen
  · exact definite_openNext hclosed hopen
  · exact definite_openTable hclosed hopen

theorem definite_add {d d' : Draft} {key : Key} {item : Item} (h : d.Definite)
    (hitem : item.Definite) (hadd : d.add key item = some d') : d'.Definite := by
  obtain ⟨entries, hentries, heq⟩ := Option.bind_eq_some_iff.mp hadd
  cases heq
  exact ⟨h.closed, fun hheader => Entries.definite_add (h.front hheader) hitem hentries⟩

end Draft

/-- Every statement of a text keeps what stands under its keys definite. -/
theorem definite_readStatements {fuel : Nat} {d d' : Draft} {cs : List Char} (h : d.Definite)
    (hread : readStatements fuel d cs = some d') : d'.Definite := by
  induction fuel generalizing d cs with
  | zero => cases hread
  | succ fuel ih =>
    rw [readStatements] at hread
    obtain ⟨lines, -, hread⟩ := Option.bind_eq_some_iff.mp hread
    split at hread
    · cases hread
      exact h
    · obtain ⟨_, -, hread⟩ := Option.bind_eq_some_iff.mp hread
      obtain ⟨opened, hopen, hread⟩ := Option.bind_eq_some_iff.mp hread
      obtain ⟨_, -, hread⟩ := Option.bind_eq_some_iff.mp hread
      exact ih (Draft.definite_open h hopen) hread
    · obtain ⟨_, hpair, hread⟩ := Option.bind_eq_some_iff.mp hread
      obtain ⟨added, hadd, hread⟩ := Option.bind_eq_some_iff.mp hread
      obtain ⟨_, -, hread⟩ := Option.bind_eq_some_iff.mp hread
      exact ih (Draft.definite_add h (definite_readPair hpair) hadd) hread

/-- **Whatever stands under a key of a TOML text is there.** -/
theorem definite_entries {text : String} {entries : Entries} (h : entries? text = some entries) :
    entries.Definite := by
  unfold entries? at h
  dsimp only at h
  obtain ⟨d, hread, hclose⟩ := Option.bind_eq_some_iff.mp h
  have hempty : Draft.Definite {} := ⟨Entries.definite_nil, fun _ => Entries.definite_nil⟩
  exact Draft.definite_close (definite_readStatements hempty hread) hclose

theorem members_announceEntries (entries : Entries) :
    (Item.announceEntries entries).members? =
      some (entries.map fun e => (e.1, e.2.announce)) := by
  induction entries with
  | nil => rfl
  | cons e rest ih =>
    rw [Item.announceEntries, Announced.Entries.members?, ih]
    rfl

/-- What a TOML text gives for the fields of a record is there. -/
theorem definite_of_standsFor {text : String} {a v : Announced Empty} {fields : List RecordField}
    (h : announce? text = some a) (hv : v.StandsFor fields a) : v.Definite := by
  obtain ⟨entries, hentries, rfl⟩ := Option.map_eq_some_iff.mp h
  rcases hv with ⟨hmembers, hmem, -⟩ | _
  rw [members_announceEntries] at hmembers
  cases hmembers
  obtain ⟨e, he, heq⟩ := List.mem_map.mp hmem
  cases heq
  exact definite_entries hentries e he

end DepositForm.Toml
