import DepositForm.Json.Write
import DepositForm.Proofs.Document.Canonical
import DepositForm.Proofs.Json.Sources

/-! # What is written is a source

The text that is written of a value is one of the texts that stand for it, so what holds of all
sources holds of what is written. A character is written as one glyph (`exists_glyph`), an integer
as a number without fraction and exponent (`exists_numeral`), and a tree without floats as a source
of its shape (`exists_source`); its announcement is that of the tree (`Announces`). Nothing is asked
of the keys here, for an announcement keeps repeated keys as they come.

The digits of a number are gathered one at a time into a word that is given up when it overflows.
The invariant is that the word is the value of the digits so far, and it holds as long as the value
of all digits fits a word, because no digit makes the value smaller (`gather_eq`).
-/
namespace DepositForm

/-- What a scalar is announced as once it is written; floats may change. -/
def Scalar.token? : Scalar → Option Token
  | .null => some .null
  | .bool b => some (.bool b)
  | .integer i => some (if i.toInt < 0 then .signed i else .unsigned (UInt64.ofNat i.toInt.toNat))
  | .unsigned u => some (.unsigned u)
  | .float _ => none
  | .text s => some (.text s)

theorem Scalar.exists_token? {s : Scalar} (h : (Node.leaf s).Floatless) :
    ∃ t, s.token? = some t := by
  cases s with
  | float x => exact absurd h id
  | null | bool b | integer i | unsigned u | text s => exact ⟨_, rfl⟩

namespace Json

/-! ## Containers without gaps -/

theorem Padded.chars_bare (v : Source) : Padded.chars { body := v } = v.chars :=
  List.append_nil _

theorem Padded.document_bare (v : Source) :
    Padded.document { body := v } = String.ofList v.chars :=
  congrArg String.ofList (chars_bare v)

theorem Member.chars_bare (key : List Glyph) (v : Source) :
    (Member.bare key v).chars = quotedChars key ++ ':' :: v.chars :=
  congrArg (fun value => quotedChars key ++ ':' :: value) (Padded.chars_bare v)

theorem Source.chars_list (items : List (Padded Source)) :
    (list ∅ items).chars = writeList (items.map Padded.chars) := by
  rw [chars, itemChars_eq_map]
  rfl

theorem Source.chars_object (members : List (Member Source)) :
    (object ∅ members).chars = writeObject (members.map Member.chars) := by
  rw [chars, memberChars_eq_map]
  rfl

/-! ## Texts -/

theorem hexDigit?_digitChar : ∀ d : Nat, d < 16 → Letter.hexDigit? (Nat.digitChar d) = some d := by
  decide

theorem hexNumber?_byte {code : Nat} (h : code < 0x20) :
    Letter.hexNumber? ['0', '0', Nat.digitChar (code / 16), Nat.digitChar (code % 16)] =
      some code := by
  have hzero : Letter.hexDigit? '0' = some 0 := by decide
  have hhigh := hexDigit?_digitChar (code / 16) (by omega)
  have hlow := hexDigit?_digitChar (code % 16) (by omega)
  simp only [Letter.hexNumber?, List.mapM_cons, List.mapM_nil, hzero, hhigh, hlow]
  simp only [Option.pure_def, Option.bind_eq_bind, Option.bind_some, List.foldl_cons,
    List.foldl_nil, Option.some.injEq]
  omega

/-- A character that is written is a glyph, and no half of a pair. -/
theorem exists_glyph (c : Char) :
    ∃ g : Glyph, g.chars = escaped c ∧
      ∀ rest, charsOf? (g :: rest) = (charsOf? rest).map (c :: ·) := by
  unfold escaped
  split
  · exact ⟨.short '"' '"' rfl, rfl, fun _ => rfl⟩
  · exact ⟨.short '\\' '\\' rfl, rfl, fun _ => rfl⟩
  · exact ⟨.short 'b' '\x08' rfl, rfl, fun _ => rfl⟩
  · exact ⟨.short 't' '\t' rfl, rfl, fun _ => rfl⟩
  · exact ⟨.short 'n' '\n' rfl, rfl, fun _ => rfl⟩
  · exact ⟨.short 'f' '\x0c' rfl, rfl, fun _ => rfl⟩
  · exact ⟨.short 'r' '\r' rfl, rfl, fun _ => rfl⟩
  · rename_i hquote hbackslash _ _ _ _ _
    split
    · rename_i hcontrol
      refine ⟨.unit _ _ _ _ c.toNat (hexNumber?_byte hcontrol), rfl, fun rest => ?_⟩
      have hfirst : isFirstHalf c.toNat = false := by simp [isFirstHalf]; omega
      have hsecond : isSecondHalf c.toNat = false := by simp [isSecondHalf]; omega
      rw [charsOf?.eq_def]
      simp [hfirst, hsecond]
    · rename_i hcontrol
      exact ⟨.plain c ⟨Nat.le_of_not_lt hcontrol, hquote, hbackslash⟩, rfl, fun _ => rfl⟩

/-- A text that is written stands there as some glyphs that stand for it. -/
theorem exists_glyphs (s : String) :
    ∃ glyphs, quotedChars glyphs = writeText s ∧ textOf? glyphs = some s := by
  have hchars : ∀ cs : List Char, ∃ glyphs : List Glyph,
      glyphs.flatMap Glyph.chars = cs.flatMap escaped ∧ charsOf? glyphs = some cs := by
    intro cs
    induction cs with
    | nil => exact ⟨[], rfl, rfl⟩
    | cons c cs ih =>
      obtain ⟨g, hg, hstands⟩ := exists_glyph c
      obtain ⟨glyphs, hglyphs, hcs⟩ := ih
      refine ⟨g :: glyphs, ?_, ?_⟩
      · rw [List.flatMap_cons, List.flatMap_cons, hg, hglyphs]
      · rw [hstands, hcs]
        rfl
  obtain ⟨glyphs, hglyphs, hcs⟩ := hchars s.toList
  refine ⟨glyphs, ?_, ?_⟩
  · rw [quotedChars, hglyphs]
    rfl
  · rw [textOf?, hcs, Option.map_some, String.ofList_toList]

/-- An entry with a text that is written stands there as a member of an object. -/
theorem exists_written_member (entry : String × String) :
    ∃ m : Member Source, m.chars = writeEntry entry.1 (writeText entry.2) ∧
      m.key? = some entry.1 ∧ m.value.body.text? = some entry.2 := by
  obtain ⟨key, hkeyChars, hkey⟩ := exists_glyphs entry.1
  obtain ⟨glyphs, hchars, htext⟩ := exists_glyphs entry.2
  refine ⟨.bare key (.text glyphs), ?_, hkey, htext⟩
  rw [Member.chars_bare, Source.chars, hkeyChars, hchars, writeEntry]

/-! ## Numbers -/

theorem le_ofDigitChars (digits : List Char) (word : Nat) :
    word ≤ Nat.ofDigitChars 10 digits word := by
  rw [Nat.ofDigitChars_eq_ofDigitChars_zero]
  have h : 1 * word ≤ 10 ^ digits.length * word :=
    Nat.mul_le_mul_right word (Nat.one_le_pow _ _ (by decide))
  omega

/-- Digits are gathered into their value as long as it fits a word. -/
theorem gather_eq {digits : List Char} {word taken : Nat}
    (h : Nat.ofDigitChars 10 digits word < UInt64.size) :
    digits.foldl Gathered.add ⟨word, 0, taken⟩ =
      ⟨Nat.ofDigitChars 10 digits word, 0, taken + digits.length⟩ := by
  induction digits generalizing word taken with
  | nil => simp
  | cons c digits ih =>
    have hcons : Nat.ofDigitChars 10 (c :: digits) word =
        Nat.ofDigitChars 10 digits (word * 10 + digitValue c) := by
      rw [Nat.ofDigitChars_cons, Nat.mul_comm 10 word]
      rfl
    rw [hcons] at h ⊢
    have hword : word * 10 + digitValue c < UInt64.size :=
      Nat.lt_of_le_of_lt (le_ofDigitChars digits _) h
    have hadd : Gathered.add ⟨word, 0, taken⟩ c = ⟨word * 10 + digitValue c, 0, taken + 1⟩ := by
      simp [Gathered.add, hword]
    rw [List.foldl_cons, hadd, ih h, List.length_cons, Nat.add_right_comm, ← Nat.add_assoc]

/-- A number in decimal digits has no zero in front unless it is zero. -/
theorem head?_toDigits_ne_zero {n : Nat} (h : 0 < n) : (Nat.toDigits 10 n).head? ≠ some '0' := by
  induction n using Nat.strongRecOn with
  | _ n ih =>
    rcases Nat.lt_or_ge n 10 with hsmall | hlarge
    · rw [Nat.toDigits_of_lt_base hsmall]
      have hdigit : ∀ d < 10, 0 < d → Nat.digitChar d ≠ '0' := by decide
      simpa using hdigit n hsmall h
    · rw [Nat.toDigits_of_base_le (by decide) hlarge, List.head?_append]
      have := ih (n / 10) (by omega) (by omega)
      cases hd : (Nat.toDigits 10 (n / 10)).head? with
      | none => simp at hd
      | some d => simpa [hd] using this

/-- Digits that have been written are read as the integer, with a sign in front or without one. -/
theorem exists_numeral (negative : Bool) {k : Nat} (hk : k < UInt64.size) :
    ∃ n : Numeral,
      n.chars = (if negative then '-' :: Nat.toDigits 10 k else Nat.toDigits 10 k) ∧
        n.token? = some (integerToken negative k) := by
  obtain ⟨d, ds, hdigits⟩ : ∃ d ds, Nat.toDigits 10 k = d :: ds :=
    List.exists_cons_of_ne_nil Nat.toDigits_ne_nil
  have hall : (d :: ds).all Char.isDigit = true := by
    rw [← hdigits]
    exact List.all_eq_true.mpr fun c hc => Nat.isDigit_of_mem_toDigits (by decide) (by decide) hc
  have hzero : d = '0' → ds = [] := by
    rintro rfl
    rcases Nat.eq_zero_or_pos k with rfl | hpos
    · exact (List.cons.inj hdigits).2.symm
    · exact absurd (by rw [hdigits]; rfl) (head?_toDigits_ne_zero hpos)
  have htoken : NumberText.token ⟨negative, d :: ds, none, none⟩ 0 =
      .ok (integerToken negative k) := by
    have hvalue : Nat.ofDigitChars 10 (Nat.toDigits 10 k) 0 < UInt64.size := by simpa using hk
    rw [← hdigits]
    simp [NumberText.token, gather, gather_eq hvalue]
  refine ⟨{ negative, whole := ⟨d, ds, hall⟩, fraction := none, exponent := none,
            zero_alone := hzero }, ?_, ?_⟩
  · rw [hdigits]
    simp [Numeral.chars, Numeral.unsignedChars, Numeral.fractionChars, Numeral.exponentChars,
      Digits.chars]
  · rw [Numeral.token?]
    exact congrArg Except.toOption htoken

theorem toList_toString_int (i : Int) :
    (toString i).toList =
      if i < 0 then '-' :: Nat.toDigits 10 i.natAbs else Nat.toDigits 10 i.natAbs := by
  cases i with
  | ofNat n =>
    have h : ¬ Int.ofNat n < 0 := Int.not_lt.mpr (Int.natCast_nonneg n)
    rw [if_neg h]
    exact Nat.toList_repr
  | negSucc n =>
    have h : Int.negSucc n < 0 := Int.negSucc_lt_zero n
    rw [if_pos h]
    show ("-" ++ Nat.repr (n + 1)).toList = _
    simp

theorem integerToken_of_neg {i : Int64} (h : i.toInt < 0) :
    integerToken true i.toInt.natAbs = .signed i := by
  have hle : -2 ^ 63 ≤ i.toInt := i.le_toInt
  have hlimit : i.toInt.natAbs ≤ signedLimit := by unfold signedLimit; omega
  have hpos : 0 < i.toInt.natAbs := by omega
  have hneg : -(i.toInt.natAbs : Int) = i.toInt := by omega
  rw [integerToken, if_pos rfl, if_pos ⟨hpos, hlimit⟩, hneg, Int64.ofInt_toInt]

/-- An integer of a word is written as a number that stands for its token. -/
theorem exists_integer_numeral (i : Int64) :
    ∃ n : Numeral, n.chars = (toString i.toInt).toList ∧ n.token? = (Scalar.integer i).token? := by
  have hlow : -2 ^ 63 ≤ i.toInt := i.le_toInt
  have hhigh : i.toInt < 2 ^ 63 := i.toInt_lt
  have hword : i.toInt.natAbs < UInt64.size := by unfold UInt64.size; omega
  rw [toList_toString_int, Scalar.token?]
  by_cases hneg : i.toInt < 0
  · obtain ⟨n, hchars, htoken⟩ := exists_numeral true hword
    refine ⟨n, ?_, ?_⟩
    · rw [hchars, if_pos rfl, if_pos hneg]
    · rw [htoken, integerToken_of_neg hneg, if_pos hneg]
  · obtain ⟨n, hchars, htoken⟩ := exists_numeral false hword
    have habs : i.toInt.natAbs = i.toInt.toNat := by omega
    refine ⟨n, ?_, ?_⟩
    · rw [hchars, if_neg Bool.false_ne_true, if_neg hneg]
    · rw [htoken, if_neg hneg, habs]
      rfl

/-! ## Trees -/

mutual
/-- The announcement says what the tree holds, with `depth` containers around it: a container may
be entered just when the limit is not reached. Places are left open. -/
def Announces (depth : Nat) : Node → Announced Fault → Prop
  | .leaf s, a => ∃ t place, s.token? = some t ∧ a = .token t place
  | .sequence items, a => ∃ opening limit shown,
      a = .sequence opening limit shown ∧ (depth + 1 < depthLimit → limit = none) ∧
        AnnouncesItems (depth + 1) items shown
  | .mapping entries, a => ∃ opening limit shown,
      a = .mapping opening limit shown ∧ (depth + 1 < depthLimit → limit = none) ∧
        AnnouncesEntries (depth + 1) entries shown

def AnnouncesItems (depth : Nat) : List Node → Announced.Items Fault → Prop
  | [], shown => ∃ place, shown = .done place
  | n :: rest, shown => ∃ unread item more,
      shown = .next unread item more ∧ Announces depth n item ∧ AnnouncesItems depth rest more

def AnnouncesEntries (depth : Nat) : List (String × Node) → Announced.Entries Fault → Prop
  | [], shown => ∃ place, shown = .done place
  | (key, n) :: rest, shown => ∃ unread place after value more,
      shown = .next unread (.token (.text key) place) after value more ∧
        Announces depth n value ∧ AnnouncesEntries depth rest more
end

/-- A scalar is written as a source that stands for its token. -/
theorem exists_scalar_source {s : Scalar} {t : Token} (ht : s.token? = some t) :
    ∃ v : Source, v.chars = writeScalar s ∧
      ∀ {depth : Nat} {a : Announced Fault}, v.Shows depth a → Gives (some t) a := by
  cases s with
  | null =>
    cases ht
    exact ⟨.null, rfl, id⟩
  | bool b =>
    cases ht
    exact ⟨.bool b, by cases b <;> rfl, id⟩
  | integer i =>
    obtain ⟨n, hchars, htoken⟩ := exists_integer_numeral i
    exact ⟨.number n, hchars, fun h => ht ▸ htoken ▸ h⟩
  | unsigned u =>
    cases ht
    obtain ⟨n, hchars, htoken⟩ := exists_numeral false u.toNat_lt
    have htoken' : integerToken false u.toNat = .unsigned u := by simp [integerToken]
    refine ⟨.number n, ?_, fun h => ?_⟩
    · rw [Source.chars, hchars, writeScalar, Nat.toString_eq_repr, Nat.toList_repr]
      rfl
    · rwa [Source.Shows, htoken, htoken'] at h
  | float x => cases ht
  | text s =>
    cases ht
    obtain ⟨glyphs, hchars, htext⟩ := exists_glyphs s
    refine ⟨.text glyphs, hchars, fun h => ?_⟩
    rwa [Source.Shows, htext] at h

mutual
/-- **A tree without floats is written as a source of its shape**, which is announced as the
tree. -/
theorem exists_source : ∀ n : Node, n.Floatless → ∃ v : Source, v.chars = writeNode n ∧
    ∀ {depth : Nat} {a : Announced Fault}, v.Shows depth a → Announces depth n a
  | .leaf s, hfloat => by
    obtain ⟨t, ht⟩ := Scalar.exists_token? hfloat
    obtain ⟨v, hchars, hgives⟩ := exists_scalar_source ht
    refine ⟨v, hchars, fun h => ?_⟩
    obtain ⟨place, ha⟩ := (hgives h).given t rfl
    exact ⟨t, place, ht, ha⟩
  | .sequence ns, hfloat => by
    obtain ⟨items, hchars, hannounces⟩ := exists_items ns hfloat.2
    refine ⟨.list ∅ items, ?_, fun h => ?_⟩
    · rw [Source.chars_list, ← Source.itemChars_eq_map, hchars, writeNode]
    · obtain ⟨opening, limit, shown, ha, hlimit, hshown⟩ := h
      exact ⟨opening, limit, shown, ha, hlimit, hannounces hshown⟩
  | .mapping es, hfloat => by
    obtain ⟨members, hchars, hannounces⟩ := exists_members es hfloat.2
    refine ⟨.object ∅ members, ?_, fun h => ?_⟩
    · rw [Source.chars_object, ← Source.memberChars_eq_map, hchars, writeNode]
    · obtain ⟨opening, limit, shown, ha, hlimit, hshown⟩ := h
      exact ⟨opening, limit, shown, ha, hlimit, hannounces hshown⟩

theorem exists_items : ∀ ns : List Node, Node.ItemsEverywhere Node.NoFloat ns →
    ∃ items : List (Padded Source), Source.itemChars items = writeItems ns ∧
      ∀ {depth : Nat} {shown : Announced.Items Fault}, Source.ItemsShow depth items shown →
        AnnouncesItems depth ns shown
  | [], _ => ⟨[], rfl, id⟩
  | n :: ns, hfloat => by
    obtain ⟨v, hchars, hannounces⟩ := exists_source n hfloat.1
    obtain ⟨items, hitems, hrest⟩ := exists_items ns hfloat.2
    refine ⟨{ body := v } :: items, ?_, ?_⟩
    · rw [Source.itemChars_eq_map, List.map_cons, Padded.chars_bare, ← Source.itemChars_eq_map,
        hchars, hitems, writeItems]
    · rintro depth shown ⟨unread, item, more, rfl, hv, hmore⟩
      exact ⟨unread, item, more, rfl, hannounces hv, hrest hmore⟩

theorem exists_members : ∀ es : List (String × Node), Node.EntriesEverywhere Node.NoFloat es →
    ∃ members : List (Member Source), Source.memberChars members = writeEntries es ∧
      ∀ {depth : Nat} {shown : Announced.Entries Fault}, Source.MembersShow depth members shown →
        AnnouncesEntries depth es shown
  | [], _ => ⟨[], rfl, id⟩
  | (key, n) :: es, hfloat => by
    obtain ⟨v, hchars, hannounces⟩ := exists_source n hfloat.1
    obtain ⟨glyphs, hglyphs, hkey⟩ := exists_glyphs key
    obtain ⟨members, hmembers, hrest⟩ := exists_members es hfloat.2
    refine ⟨.bare glyphs v :: members, ?_, ?_⟩
    · rw [Source.memberChars_eq_map, List.map_cons, Member.chars_bare,
        ← Source.memberChars_eq_map, hglyphs, hchars, hmembers]
      rfl
    · rintro depth shown ⟨unread, name, afterKey, value, more, rfl, hname, hv, hmore⟩
      obtain ⟨place, rfl⟩ := hname.given (.text key) (by rw [hkey]; rfl)
      exact ⟨unread, place, afterKey, value, more, rfl, hannounces hv, hrest hmore⟩
end

end Json
end DepositForm
