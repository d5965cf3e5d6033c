import DepositForm.Document.Walk
import DepositForm.Proofs.Json.RoundTrip

/-! # Integers in JSON

A number without fraction and exponent denotes an integer, however many digits it has. Its digits
are gathered into a word, so what has to be ruled out is that a digit is lost where the word is
full, and that the word is taken for another integer where its sign is given to it. Neither happens:
an integer in the range of one of the two words is read as itself, and any other one is a float or a
fault, never an integer (`integer_read_exactly`).

For the integers in range nothing has to be said about the gathering again. A number without zeros
in front is the text that is written of the integer it denotes (`toString_integer`), because digits
that follow those of a positive number are read on from it (`toDigits_append`); and what is written
is known to come back. For the others the point is the digit that does not fit: once one is left
out, there is no way back to an exact value (`left_ne_zero`).
-/
namespace DepositForm.Json

/-! ## Decimal digits -/

theorem digitValue_lt {c : Char} (h : c.isDigit = true) : digitValue c < 10 := by
  obtain ⟨-, hnine⟩ := Char.isDigit_iff_toNat.mp h
  have hdigits : '9'.toNat = '0'.toNat + 9 := rfl
  unfold digitValue
  omega

theorem toDigits_digitValue {c : Char} (h : c.isDigit = true) :
    Nat.toDigits 10 (digitValue c) = [c] := by
  obtain ⟨hzero, -⟩ := Char.isDigit_iff_toNat.mp h
  have hcode : (digitValue c).digitChar.toNat = c.toNat := by
    rw [Nat.toNat_digitChar_of_lt_ten (digitValue_lt h)]
    exact Nat.add_sub_of_le hzero
  rw [Nat.toDigits_of_lt_base (digitValue_lt h), Char.toNat_inj.mp hcode]

/-- Digits that follow those of a positive number are read on from it. -/
theorem toDigits_append {n : Nat} {digits : List Char} (hn : 0 < n)
    (h : ∀ c ∈ digits, c.isDigit = true) :
    Nat.toDigits 10 n ++ digits = Nat.toDigits 10 (Nat.ofDigitChars 10 digits n) := by
  induction digits generalizing n with
  | nil => simp
  | cons c digits ih =>
    obtain ⟨hc, hdigits⟩ := List.forall_mem_cons.mp h
    calc Nat.toDigits 10 n ++ c :: digits
        = (Nat.toDigits 10 n ++ Nat.toDigits 10 (digitValue c)) ++ digits := by
          rw [toDigits_digitValue hc, List.append_assoc, List.singleton_append]
      _ = Nat.toDigits 10 (10 * n + digitValue c) ++ digits := by
          rw [Nat.toDigits_append_toDigits (by decide) hn (digitValue_lt hc)]
      _ = Nat.toDigits 10 (Nat.ofDigitChars 10 (c :: digits) n) := by
          rw [ih (by omega) hdigits, Nat.ofDigitChars_cons]
          rfl

/-- The number that some digits stand for. -/
def Digits.value (d : Digits) : Nat := Nat.ofDigitChars 10 d.chars 0

/-- **Digits without a zero in front are those of the number that they stand for.** -/
theorem Digits.toDigits_value {d : Digits} (h : d.first = '0' → d.others = []) :
    Nat.toDigits 10 d.value = d.chars := by
  have hfirst : d.first.isDigit = true := d.isDigit_of_mem List.mem_cons_self
  have hothers : ∀ c ∈ d.others, c.isDigit = true := fun c hc =>
    d.isDigit_of_mem (List.mem_cons_of_mem _ hc)
  have hvalue : d.value = Nat.ofDigitChars 10 d.others (digitValue d.first) := by
    rw [value, chars, Nat.ofDigitChars_cons, Nat.mul_zero, Nat.zero_add]
    rfl
  rw [hvalue]
  rcases Nat.eq_zero_or_pos (digitValue d.first) with hzero | hpos
  · have hchar : ['0'] = [d.first] := by rw [← toDigits_digitValue hfirst, hzero]; rfl
    rw [chars, h (List.cons.inj hchar).1.symm, Nat.ofDigitChars_nil, toDigits_digitValue hfirst]
  · rw [← toDigits_append hpos hothers, toDigits_digitValue hfirst]
    rfl

/-! ## Digits that do not fit -/

theorem add_of_fits {word taken : Nat} {c : Char} (h : word * 10 + digitValue c < UInt64.size) :
    Gathered.add ⟨word, 0, taken⟩ c = ⟨word * 10 + digitValue c, 0, taken + 1⟩ := by
  simp [Gathered.add, h]

/-- Once a digit has been left out, so are all that follow. -/
theorem left_ne_zero_of_left {digits : List Char} {g : Gathered} (h : g.left ≠ 0) :
    (digits.foldl Gathered.add g).left ≠ 0 := by
  induction digits generalizing g with
  | nil => exact h
  | cons c digits ih =>
    refine ih ?_
    simp [Gathered.add, h]

/-- **Of digits that stand for a number beyond a word, one is left out.** -/
theorem left_ne_zero {digits : List Char} {word taken : Nat} (hword : word < UInt64.size)
    (h : UInt64.size ≤ Nat.ofDigitChars 10 digits word) :
    (digits.foldl Gathered.add ⟨word, 0, taken⟩).left ≠ 0 := by
  induction digits generalizing word taken with
  | nil => exact absurd hword (Nat.not_lt.mpr h)
  | cons c digits ih =>
    rw [Nat.ofDigitChars_cons, Nat.mul_comm 10 word] at h
    rw [List.foldl_cons]
    by_cases hfits : word * 10 + digitValue c < UInt64.size
    · rw [add_of_fits hfits]
      exact ih hfits h
    · refine left_ne_zero_of_left ?_
      simp [Gathered.add, hfits]

/-! ## Numbers that denote integers -/

namespace Numeral

/-- The number has neither a fraction nor an exponent. -/
def IsInteger (n : Numeral) : Prop := n.fraction = none ∧ n.exponent = none

/-- The integer that such a number denotes. -/
def integer (n : Numeral) : Int := if n.negative then -(n.whole.value : Int) else n.whole.value

/-- The number as a document of its own. -/
def document (n : Numeral) : String := String.ofList n.chars

variable {n : Numeral}

theorem chars_of_isInteger (h : n.IsInteger) :
    n.chars = if n.negative then '-' :: Nat.toDigits 10 n.whole.value
      else Nat.toDigits 10 n.whole.value := by
  have hunsigned : n.unsignedChars = n.whole.chars := by
    simp [unsignedChars, fractionChars, exponentChars, h.1, h.2]
  rw [chars, hunsigned, Digits.toDigits_value n.zero_alone]

/-- **An integer is denoted by the text that is written of it**, and by no other but zero with a
sign. -/
theorem toString_integer (h : n.IsInteger) (hzero : n.document ≠ "-0") :
    toString n.integer = n.document := by
  apply String.toList_inj.mp
  rw [document, String.toList_ofList, toList_toString_int, integer, chars_of_isInteger h]
  rw [document, chars_of_isInteger h] at hzero
  cases hsign : n.negative with
  | false => simp
  | true =>
    have hpos : 0 < n.whole.value := by
      rw [hsign] at hzero
      refine Nat.pos_of_ne_zero fun hvalue => hzero ?_
      rw [hvalue]
      rfl
    simp [hpos]

/-! ## What is read -/

/-- A number in the range of a word is gathered to its last digit. -/
theorem token_of_fits (h : n.IsInteger) (hfits : n.whole.value < UInt64.size) (start place : Nat) :
    (n.parts start).token place = .ok (integerToken n.negative n.whole.value) := by
  simp [parts, h.1, h.2, NumberText.token, gather, gather_eq hfits, Digits.value]

/-- A number beyond a word is a float, or it is out of range. -/
theorem token_of_overflow (h : n.IsInteger) (hbeyond : UInt64.size ≤ n.whole.value)
    (start place : Nat) :
    (∃ x, (n.parts start).token place = .ok (.float x)) ∨
      (n.parts start).token place = .error ⟨.numberRange, place⟩ := by
  have hleft : (gather 0 n.whole.chars).left ≠ 0 := left_ne_zero (by decide) hbeyond
  simp only [parts, h.1, h.2, Option.map_none, NumberText.token]
  split
  · rename_i hnone
    exact absurd hnone hleft
  · split
    · exact .inl ⟨_, rfl⟩
    · exact .inr rfl

/-- An integer that neither word can take is a float, or it is out of range. -/
theorem token_of_beyond (h : n.IsInteger)
    (hbeyond : n.integer < -0x8000000000000000 ∨ 0x10000000000000000 ≤ n.integer)
    (start place : Nat) :
    (∃ x, (n.parts start).token place = .ok (.float x)) ∨
      (n.parts start).token place = .error ⟨.numberRange, place⟩ := by
  by_cases hfits : n.whole.value < UInt64.size
  · -- The digits fit, so it is the sign that takes the integer out of the range.
    have hnegative : n.negative = true := by
      cases hsign : n.negative with
      | true => rfl
      | false =>
        rw [integer, hsign, if_neg Bool.false_ne_true] at hbeyond
        unfold UInt64.size at hfits
        omega
    have hlow : ¬ (0 < n.whole.value ∧ n.whole.value ≤ signedLimit) := by
      rw [integer, hnegative, if_pos rfl] at hbeyond
      unfold signedLimit
      omega
    have htoken := token_of_fits h hfits start place
    rw [hnegative, integerToken, if_pos rfl, if_neg hlow] at htoken
    exact .inl ⟨_, htoken⟩
  · exact token_of_overflow h (Nat.le_of_not_lt hfits) start place

/-- A number is announced as what it stands for, or as the fault that it stands for nothing. -/
theorem announce_document (n : Numeral) :
    ∃ start place, announce n.document = ⟨match (n.parts start).token place with
      | .ok t => .token t place
      | .error f => .unreadable f, none⟩ := by
  have hends : EndsNumber [] := by simp [EndsNumber]
  obtain ⟨start, place, hscan⟩ := n.scanNumber_chars 0 hends
  obtain ⟨c, cs, hchars, hbegins⟩ := n.chars_eq_cons
  have hcursor : Cursor.ofText n.document = ⟨c :: cs, 0⟩ := by
    rw [Cursor.ofText, document, String.toList_ofList, hchars]
  rw [List.append_nil, hchars] at hscan
  refine ⟨start, place, ?_⟩
  rw [announce, hcursor]
  simp only [announceValue_number hbegins, announceNumber, hscan]
  cases (n.parts start).token place <;> rfl

/-- An integer that neither word can take is read as a float, or not at all. -/
theorem read_of_beyond (h : n.IsInteger)
    (hbeyond : n.integer < -0x8000000000000000 ∨ 0x10000000000000000 ≤ n.integer) :
    (∃ x, Format.readJson Announced.toNode n.document = .ok (.leaf (.float x))) ∨
      ∃ place, Format.readJson Announced.toNode n.document =
        .error (errorMessage n.document (.fault ⟨.numberRange, place⟩)) := by
  obtain ⟨start, place, hannounced⟩ := n.announce_document
  rcases token_of_beyond h hbeyond start place with ⟨x, hfloat⟩ | hfault
  · refine .inl ⟨x, ?_⟩
    rw [hfloat] at hannounced
    rw [Format.readJson, read, hannounced]
    rfl
  · refine .inr ⟨place, ?_⟩
    rw [hfault] at hannounced
    rw [Format.readJson, read, hannounced]
    rfl

end Numeral

/-- A document is read as a scalar that is shown, and written, as the document itself. -/
structure Exactly (document : String) (s : Scalar) : Prop where
  read : Format.readJson Announced.toNode document = .ok (.leaf s)
  display : s.display = document
  text : Json.text (.leaf s) = document

theorem exactly_integer (i : Int64) : Exactly (toString i.toInt) (.integer i) := by
  have htext : Json.text (.leaf (.integer i)) = toString i.toInt := String.ofList_toList
  have hread := read_text (n := .leaf (.integer i)) trivial trivial (Nat.zero_lt_succ _)
  rw [htext] at hread
  exact ⟨hread, rfl, htext⟩

theorem exactly_unsigned {u : UInt64} (h : signedLimit ≤ u.toNat) :
    Exactly (toString u.toNat) (.unsigned u) := by
  have htext : Json.text (.leaf (.unsigned u)) = toString u.toNat := String.ofList_toList
  have hread := read_text (n := .leaf (.unsigned u)) trivial h (Nat.zero_lt_succ _)
  rw [htext] at hread
  exact ⟨hread, rfl, htext⟩

namespace Numeral

variable {n : Numeral}

/-- **An integer is read exactly if it is in the range of a word, and is never read as another
one.** However many digits it has, the signed word takes it from its least value on, and the
unsigned word takes it where the signed one ends; such a leaf is shown and written digit for digit
as it was given. Any other integer is a float, or a fault that says that it is out of range. Zero
with a sign is left out: it is a float. -/
theorem integer_read_exactly (h : n.IsInteger) (hzero : n.document ≠ "-0") :
    (-0x8000000000000000 ≤ n.integer → n.integer < 0x8000000000000000 →
      ∃ i : Int64, i.toInt = n.integer ∧ Exactly n.document (.integer i)) ∧
    (0x8000000000000000 ≤ n.integer → n.integer < 0x10000000000000000 →
      ∃ u : UInt64, u.toNat = n.integer ∧ Exactly n.document (.unsigned u)) ∧
    (n.integer < -0x8000000000000000 ∨ 0x10000000000000000 ≤ n.integer →
      (∃ x, Format.readJson Announced.toNode n.document = .ok (.leaf (.float x))) ∨
        ∃ place, Format.readJson Announced.toNode n.document =
          .error (errorMessage n.document (.fault ⟨.numberRange, place⟩))) := by
  rw [← toString_integer h hzero]
  refine ⟨fun hlow hhigh => ?_, fun hlow hhigh => ?_, ?_⟩
  · have hi : (Int64.ofInt n.integer).toInt = n.integer := Int64.toInt_ofInt_of_le hlow hhigh
    have hexactly := exactly_integer (Int64.ofInt n.integer)
    rw [hi] at hexactly
    exact ⟨_, hi, hexactly⟩
  · have hword : n.integer.toNat < UInt64.size := by unfold UInt64.size; omega
    have hu : (UInt64.ofNat n.integer.toNat).toNat = n.integer := by
      rw [UInt64.toNat_ofNat_of_lt' hword]
      exact Int.toNat_of_nonneg (by omega)
    have hexactly : Exactly (toString ((UInt64.ofNat n.integer.toNat).toNat : Int)) _ :=
      exactly_unsigned (by unfold signedLimit; omega)
    rw [hu] at hexactly
    exact ⟨_, hu, hexactly⟩
  · rw [toString_integer h hzero]
    exact read_of_beyond h

/-- The least signed integer, the least unsigned one, and the first integer that is in neither
word. -/
theorem integer_read_at_limits :
    let least : Numeral := { negative := true, whole := ⟨'9', "223372036854775808".toList, rfl⟩,
                             fraction := none, exponent := none }
    let middle : Numeral := { negative := false, whole := ⟨'9', "223372036854775808".toList, rfl⟩,
                              fraction := none, exponent := none }
    let beyond : Numeral := { negative := false, whole := ⟨'1', "8446744073709551616".toList, rfl⟩,
                              fraction := none, exponent := none }
    (least.IsInteger ∧ least.document = "-9223372036854775808" ∧
      ∃ i : Int64, i.toInt = -9223372036854775808 ∧ Exactly "-9223372036854775808" (.integer i)) ∧
    (middle.IsInteger ∧ middle.document = "9223372036854775808" ∧
      ∃ u : UInt64, u.toNat = 9223372036854775808 ∧ Exactly "9223372036854775808" (.unsigned u)) ∧
    (beyond.IsInteger ∧ beyond.document = "18446744073709551616" ∧
      ((∃ x, Format.readJson Announced.toNode "18446744073709551616" = .ok (.leaf (.float x))) ∨
        ∃ place, Format.readJson Announced.toNode "18446744073709551616" =
          .error (errorMessage "18446744073709551616" (.fault ⟨.numberRange, place⟩)))) := by
  intro least middle beyond
  have hleast : least.document = "-9223372036854775808" := rfl
  have hmiddle : middle.document = "9223372036854775808" := rfl
  have hbeyond : beyond.document = "18446744073709551616" := rfl
  have hleastValue : least.integer = -9223372036854775808 := by decide
  have hmiddleValue : middle.integer = 9223372036854775808 := by decide
  have hbeyondValue : beyond.integer = 18446744073709551616 := by decide
  refine ⟨⟨⟨rfl, rfl⟩, hleast, ?_⟩, ⟨⟨rfl, rfl⟩, hmiddle, ?_⟩, ⟨⟨rfl, rfl⟩, hbeyond, ?_⟩⟩
  · have hread := (integer_read_exactly (n := least) ⟨rfl, rfl⟩ (by rw [hleast]; decide)).1
      (by omega) (by omega)
    rwa [hleastValue, hleast] at hread
  · obtain ⟨u, hu, hread⟩ := (integer_read_exactly (n := middle) ⟨rfl, rfl⟩
      (by rw [hmiddle]; decide)).2.1 (by omega) (by omega)
    rw [hmiddleValue] at hu
    rw [hmiddle] at hread
    exact ⟨u, by omega, hread⟩
  · have hread := (integer_read_exactly (n := beyond) ⟨rfl, rfl⟩ (by rw [hbeyond]; decide)).2.2
      (.inr (by omega))
    rwa [hbeyond] at hread

end Numeral
end DepositForm.Json
