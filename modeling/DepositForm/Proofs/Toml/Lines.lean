import DepositForm.Proofs.Document.Repeated
import DepositForm.Proofs.Toml.Text
import DepositForm.Toml.Read
import Mathlib.Data.List.Nodup

/-! # Lines that set keys

A text of written lines says what its lines say: the entries it is read as are the keys of the
lines with their values, in order. A line takes a bare key, and a value that is read back up to the
end of its line (`Stands`); texts and truth values are such. The keys must be distinct, because a
key may be set only once.

The induction is on the lines; what the lines before have set is the draft that reading goes on
from.
-/
namespace DepositForm.Toml

/-! ## Values -/

/-- A written value that is read as an item: it begins like a plain value, and ends where its line
does. -/
structure Stands (value : List Char) (item : Item) : Prop where
  begins : ∀ c ∈ value.head?, isBlank c = false ∧ c ≠ '[' ∧ c ≠ '{'
  nonempty : value ≠ []
  reads : ∀ rest, readPlain (value ++ '\n' :: rest) = some (item, '\n' :: rest)

/-- Every text is written with a quote in front. -/
theorem exists_writeText_eq_cons (s : String) :
    ∃ quote more, (quote = '"' ∨ quote = '\'') ∧ writeText s = quote :: more := by
  rw [writeText]
  cases textForm s.toList with
  | basic => exact ⟨'"', _, .inl rfl, rfl⟩
  | literal => exact ⟨'\'', _, .inr rfl, rfl⟩
  | basicLines => exact ⟨'"', _, .inl rfl, rfl⟩
  | literalLines => exact ⟨'\'', _, .inr rfl, rfl⟩

theorem stands_writeText (s : String) : Stands (writeText s) (.token (.text s)) := by
  obtain ⟨quote, more, hquote, heq⟩ := exists_writeText_eq_cons s
  refine ⟨?_, by simp [heq], fun rest => ?_⟩
  · rw [heq]
    rintro c ⟨⟩
    rcases hquote with rfl | rfl <;> decide
  · have hread := @readText_writeText s ('\n' :: rest) (by simp) (by simp)
    rw [heq, List.cons_append] at hread ⊢
    rcases hquote with rfl | rfl <;> simp [readPlain, hread]

theorem stands_writeBool (b : Bool) : Stands (writeBool b) (.token (.bool b)) := by
  cases b
  · exact ⟨by simp [writeBool, isBlank], by decide, fun rest => rfl⟩
  · exact ⟨by simp [writeBool, isBlank], by decide, fun rest => rfl⟩

/-- A value that stands is read by the reader of all values. -/
theorem Stands.readValue {value : List Char} {item : Item} (h : Stands value item) (levels : Nat)
    (rest : List Char) :
    readValue levels (value ++ '\n' :: rest) = some (item, '\n' :: rest) := by
  obtain ⟨c, more, rfl⟩ := List.exists_cons_of_ne_nil h.nonempty
  obtain ⟨-, hbracket, hbrace⟩ := h.begins c rfl
  have hread := h.reads rest
  rw [List.cons_append] at hread ⊢
  rw [Toml.readValue, hread]
  · exact fun _ _ _ heq => hbracket (List.cons.inj heq).1
  · exact fun _ _ _ heq => hbrace (List.cons.inj heq).1

/-! ## Keys -/

/-- A key that needs no quotes. -/
structure Bare (key : String) : Prop where
  nonempty : key ≠ ""
  chars : ∀ c ∈ key.toList, isBareKey c = true

/-- The first character of a bare key, after which the key goes on. -/
theorem Bare.exists_cons {key : String} (h : Bare key) :
    ∃ c more, key.toList = c :: more ∧ isBareKey c = true := by
  obtain ⟨c, more, heq⟩ := List.exists_cons_of_ne_nil (mt String.toList_eq_nil_iff.mp h.nonempty)
  exact ⟨c, more, heq, h.chars c (by simp [heq])⟩

/-- No bare character is one that means something to a reader. -/
theorem ne_of_isBareKey {c d : Char} (hc : isBareKey c = true) (hd : isBareKey d = false) :
    c ≠ d := by
  rintro rfl
  rw [hc] at hd
  cases hd

theorem skipBlanks_of_not_blank {c : Char} (h : isBlank c = false) (rest : List Char) :
    skipBlanks (c :: rest) = c :: rest :=
  List.dropWhile_cons_of_neg (by simp [h])

theorem isBlank_of_isBareKey {c : Char} (h : isBareKey c = true) : isBlank c = false := by
  have hspace : c ≠ ' ' := ne_of_isBareKey h (by decide)
  have htab : c ≠ '\t' := ne_of_isBareKey h (by decide)
  simp [isBlank, hspace, htab]

theorem readName_bare {key : String} (h : Bare key) {c : Char} (hc : isBareKey c = false)
    (rest : List Char) : readName (key.toList ++ c :: rest) = some (key, c :: rest) := by
  obtain ⟨first, more, heq, hfirst⟩ := h.exists_cons
  have hne : ∀ d, isBareKey d = false → first ≠ d := fun d => ne_of_isBareKey hfirst
  have htake : (key.toList ++ c :: rest).takeWhile isBareKey = key.toList := by
    rw [List.takeWhile_append_of_pos h.chars, List.takeWhile_cons_of_neg (by simp [hc]),
      List.append_nil]
  have hdrop : (key.toList ++ c :: rest).dropWhile isBareKey = c :: rest := by
    rw [List.dropWhile_append_of_pos h.chars, List.dropWhile_cons_of_neg (by simp [hc])]
  rw [readName, htake, hdrop]
  · rw [if_neg (by simp [heq]), String.ofList_toList]
  · rintro more' heq'
    rw [heq] at heq'
    exact hne '"' (by decide) (List.cons.inj heq').1
  · rintro more' heq'
    rw [heq] at heq'
    exact hne '\'' (by decide) (List.cons.inj heq').1

theorem readKey_bare {key : String} (h : Bare key) (names : Nat) (rest : List Char) :
    readKey (names + 1) (key.toList ++ ' ' :: '=' :: rest) = some (⟨[], key⟩, '=' :: rest) := by
  obtain ⟨first, more, heq, hfirst⟩ := h.exists_cons
  have hfront : skipBlanks (key.toList ++ ' ' :: '=' :: rest) =
      key.toList ++ ' ' :: '=' :: rest := by
    rw [heq]
    exact skipBlanks_of_not_blank (isBlank_of_isBareKey hfirst) _
  have hbehind : skipBlanks (' ' :: '=' :: rest) = '=' :: rest := rfl
  rw [readKey, hfront, readName_bare h (by decide)]
  simp [hbehind]

/-- A line is read as its key with its value. -/
theorem readPair_writeLine {key : String} {value : List Char} {item : Item} (hkey : Bare key)
    (hvalue : Stands value item) (levels : Nat) (rest : List Char) :
    readPair (readValue levels) (writeLine key value ++ rest) =
      some (⟨[], key⟩, item, '\n' :: rest) := by
  have hblanks : skipBlanks (' ' :: (value ++ '\n' :: rest)) = value ++ '\n' :: rest := by
    obtain ⟨c, more, rfl⟩ := List.exists_cons_of_ne_nil hvalue.nonempty
    exact skipBlanks_of_not_blank (hvalue.begins c rfl).1 _
  have hread := hvalue.readValue levels rest
  have hend : skipBlanks ('\n' :: rest) = '\n' :: rest := rfl
  have hline : writeLine key value ++ rest =
      key.toList ++ ' ' :: '=' :: ' ' :: (value ++ '\n' :: rest) := by
    simp [writeLine]
  rw [readPair, hline, levelLimit, readKey_bare hkey]
  simp [hblanks, hread, hend]

/-! ## Lines -/

/-- A line that sets a key: what is written, and what it is read as. -/
structure Line where
  key : String
  value : List Char
  item : Item

namespace Line

/-- A line that is read as it says. -/
structure Sound (l : Line) : Prop where
  key : Bare l.key
  value : Stands l.value l.item

def written (l : Line) : List Char := writeLine l.key l.value

def entry (l : Line) : String × Item := (l.key, l.item)

end Line

/-- A bare key that is not there yet is added at the end. -/
theorem Draft.add_bare {d : Draft} {key : String} (h : key ∉ d.entries.map Prod.fst) (item : Item) :
    d.add ⟨[], key⟩ item = some { d with entries := d.entries ++ [(key, item)] } := by
  have hnone : d.entries.lookup key = none := lookup_eq_none.mpr h
  simp [Draft.add, Entries.add, Entries.edit, hnone]

/-- One line is read, and reading goes on behind it. -/
theorem readStatements_line {l : Line} (h : l.Sound) {d : Draft}
    (hkey : l.key ∉ d.entries.map Prod.fst) (fuel : Nat) (rest : List Char) :
    readStatements (fuel + 1) d (l.written ++ rest) =
      readStatements fuel { d with entries := d.entries ++ [l.entry] } rest := by
  obtain ⟨first, more, heq, hfirst⟩ := h.key.exists_cons
  have hpair := readPair_writeLine h.key h.value levelLimit rest
  have hne : ∀ c, isBareKey c = false → first ≠ c := fun c => ne_of_isBareKey hfirst
  obtain ⟨behind, hwritten⟩ : ∃ behind, l.written ++ rest = first :: behind := by
    rw [Line.written, writeLine, heq]
    exact ⟨_, rfl⟩
  -- The first character is bare, so the line is neither blank nor a comment nor a header.
  have hskip : skipLines false (first :: behind) = some (first :: behind) := by
    rw [skipLines, if_neg (by decide), if_neg (hne '#' (by decide)),
      if_neg (by simp [isBlank_of_isBareKey hfirst])]
    · exact hne '\n' (by decide)
    · exact fun _ heq _ => hne '\r' (by decide) heq
  rw [← Line.written, hwritten] at hpair
  rw [readStatements, hwritten, hskip, Option.bind_eq_bind, Option.bind_some]
  split
  case h_1 heq => cases heq
  case h_2 heq => exact absurd (List.cons.inj heq).1 (hne '[' (by decide))
  case h_3 =>
    rw [hpair]
    simp [Draft.add_bare hkey, finishLine?, skipBlanks, isBlank, lineEnd?, Line.entry]

/-- Lines with distinct keys set just these keys. -/
theorem readStatements_lines {lines : List Line} (h : ∀ l ∈ lines, l.Sound) {d : Draft}
    (hkeys : (d.entries.map Prod.fst ++ lines.map Line.key).Nodup) {fuel : Nat}
    (hfuel : lines.length < fuel) {rest : List Char} (hrest : skipLines false rest = some []) :
    readStatements fuel d (lines.flatMap Line.written ++ rest) =
      some { d with entries := d.entries ++ lines.map Line.entry } := by
  induction lines generalizing d fuel with
  | nil =>
    obtain ⟨fuel, rfl⟩ := Nat.exists_eq_succ_of_ne_zero (Nat.ne_zero_of_lt hfuel)
    rw [List.flatMap_nil, List.nil_append, readStatements, hrest]
    simp
  | cons l lines ih =>
    obtain ⟨fuel, rfl⟩ := Nat.exists_eq_succ_of_ne_zero (Nat.ne_zero_of_lt hfuel)
    obtain ⟨hl, hlines⟩ := List.forall_mem_cons.mp h
    have hkey : l.key ∉ d.entries.map Prod.fst := by
      rw [List.nodup_append'] at hkeys
      exact fun hmem => hkeys.2.2 hmem (by simp)
    have hnext : ((d.entries ++ [l.entry]).map Prod.fst ++ lines.map Line.key).Nodup := by
      simpa [Line.entry] using hkeys
    rw [List.flatMap_cons, List.append_assoc, readStatements_line hl hkey, ih hlines hnext]
    · simp
    · simpa using hfuel

theorem length_le_length_written (lines : List Line) :
    lines.length ≤ (lines.flatMap Line.written).length := by
  induction lines with
  | nil => exact Nat.zero_le _
  | cons l lines ih =>
    have hwritten : 1 ≤ l.written.length := by
      rw [Line.written, writeLine, List.length_append]
      exact Nat.le_add_left 1 _
    rw [List.flatMap_cons, List.length_append, List.length_cons]
    omega

/-- No line begins with a byte order mark, and what is passed over does not. -/
theorem written_ne_mark {lines : List Line} (h : ∀ l ∈ lines, l.Sound) {rest : List Char}
    (hrest : skipLines false rest = some []) (more : List Char) :
    lines.flatMap Line.written ++ rest ≠ '\uFEFF' :: more := by
  intro heq
  cases lines with
  | nil =>
    subst heq
    simp [skipLines, isBlank] at hrest
  | cons l lines =>
    obtain ⟨first, behind, hkey, hfirst⟩ := (h l (by simp)).key.exists_cons
    rw [List.flatMap_cons, Line.written, writeLine, hkey] at heq
    exact ne_of_isBareKey hfirst (by decide) (List.cons.inj heq).1

/-- **A text of lines says what its lines say**, in order, whatever is passed over behind them. -/
theorem entries?_lines {lines : List Line} (h : ∀ l ∈ lines, l.Sound)
    (hkeys : (lines.map Line.key).Nodup) {rest : List Char}
    (hrest : skipLines false rest = some []) :
    entries? (String.ofList (lines.flatMap Line.written ++ rest)) =
      some (lines.map Line.entry) := by
  have hfuel : lines.length < (lines.flatMap Line.written ++ rest).length + 1 := by
    have hlength := length_le_length_written lines
    rw [List.length_append]
    omega
  have hread := @readStatements_lines lines h {} hkeys _ hfuel rest hrest
  rw [entries?, String.toList_ofList]
  split
  case h_1 heq => exact absurd heq (written_ne_mark h hrest _)
  case h_2 =>
    rw [hread]
    simp [Draft.close]

end DepositForm.Toml
