import DepositForm.Announced.Value
import DepositForm.Json.Number
import DepositForm.Json.Text

/-! # The texts of JSON values

One value has many texts: blanks may stand between its parts, a character may be escaped in several
ways, and a number may have a fraction and an exponent that it does not need. A `Source` is a value
together with all that its text leaves open, so that every JSON text is the text of a source
(`Source.chars`), and a statement about all JSON texts is one about all sources.

Some sources have no value. The escape of one half of a surrogate pair stands for no character where
the other half is missing (`charsOf?`), and a number can be too large (`Numeral.token?`). What a
source stands for otherwise is told by `Source.value?`.
-/
namespace DepositForm.Json

/-! ## Blanks and digits -/

/-- Blanks between two parts of a text, or none. -/
structure Gap where
  chars : List Char
  blank : chars.all Cursor.skipBlanks.isBlank = true := by decide

theorem Gap.isBlank_of_mem {g : Gap} {c : Char} (h : c ∈ g.chars) :
    Cursor.skipBlanks.isBlank c = true :=
  List.all_eq_true.mp g.blank c h

instance : EmptyCollection Gap := ⟨{ chars := [] }⟩

/-- One digit or more. -/
structure Digits where
  first : Char
  others : List Char
  digit : (first :: others).all Char.isDigit = true := by decide

def Digits.chars (d : Digits) : List Char := d.first :: d.others

theorem Digits.isDigit_of_mem {d : Digits} {c : Char} (h : c ∈ d.chars) : c.isDigit = true :=
  List.all_eq_true.mp d.digit c h

/-- What stands between its gaps. -/
structure Padded (α : Type) where
  before : Gap := ∅
  body : α
  after : Gap := ∅

/-! ## Numbers -/

/-- The exponent of a number; `sign` is whether it is negative, if it has a sign. -/
structure Power where
  letter : Char
  letter_eq : letter = 'e' ∨ letter = 'E' := by decide
  sign : Option Bool
  digits : Digits

def Power.signChars (p : Power) : List Char :=
  match p.sign with
  | none => []
  | some true => ['-']
  | some false => ['+']

def Power.chars (p : Power) : List Char := p.letter :: (p.signChars ++ p.digits.chars)

/-- A number as it is written. It has no zero in front of other digits. -/
structure Numeral where
  negative : Bool
  whole : Digits
  fraction : Option Digits
  exponent : Option Power
  zero_alone : whole.first = '0' → whole.others = [] := by decide

namespace Numeral

def fractionChars (n : Numeral) : List Char :=
  match n.fraction with
  | none => []
  | some digits => '.' :: digits.chars

def exponentChars (n : Numeral) : List Char :=
  match n.exponent with
  | none => []
  | some power => power.chars

/-- The number from its first digit on. -/
def unsignedChars (n : Numeral) : List Char :=
  n.whole.chars ++ (n.fractionChars ++ n.exponentChars)

def chars (n : Numeral) : List Char :=
  if n.negative then '-' :: n.unsignedChars else n.unsignedChars

/-- The parts of the number, the digits of its exponent at the place `start`. -/
def parts (n : Numeral) (start : Nat) : NumberText where
  negative := n.negative
  whole := n.whole.chars
  fraction := n.fraction.map Digits.chars
  exponent := n.exponent.map fun p => (p.sign == some true, p.digits.chars, start)

/-- What the number stands for; `none` if it is too large. -/
def token? (n : Numeral) : Option Token := ((n.parts 0).token 0).toOption

end Numeral

/-! ## Texts -/

/-- One character between the quotes, or one escape. -/
inductive Glyph where
  /-- A character that stands for itself. -/
  | plain (c : Char) (h : 0x20 ≤ c.toNat ∧ c ≠ '"' ∧ c ≠ '\\')
  /-- A backslash and one character. -/
  | short (letter c : Char) (h : plainEscape? letter = some c)
  /-- Four hexadecimal digits, for a character or half of a pair. -/
  | unit (w x y z : Char) (code : Nat) (h : Letter.hexNumber? [w, x, y, z] = some code)

def Glyph.chars : Glyph → List Char
  | plain c _ => [c]
  | short letter _ _ => ['\\', letter]
  | unit w x y z _ _ => ['\\', 'u', w, x, y, z]

/-- The first half of a pair, as the digits of a glyph. -/
theorem hexNumber?_firstHalf : Letter.hexNumber? ['d', '8', '0', '0'] = some 0xd800 := by decide

/-- The characters that some glyphs stand for; `none` if half of a pair is without the other. -/
def charsOf? : List Glyph → Option (List Char)
  | [] => some []
  | .plain c _ :: rest => (charsOf? rest).map (c :: ·)
  | .short _ c _ :: rest => (charsOf? rest).map (c :: ·)
  | .unit _ _ _ _ first _ :: rest =>
    if isFirstHalf first then
      match rest with
      | .unit _ _ _ _ second _ :: rest =>
        if isSecondHalf second then (charsOf? rest).map (joinHalves first second :: ·) else none
      | _ => none
    else if isSecondHalf first then none
    else (charsOf? rest).map (Char.ofNat first :: ·)

/-- The text that some glyphs stand for. -/
def textOf? (glyphs : List Glyph) : Option String := (charsOf? glyphs).map String.ofList

/-- Glyphs between quotes. -/
def quotedChars (glyphs : List Glyph) : List Char := '"' :: (glyphs.flatMap Glyph.chars ++ ['"'])

/-! ## Values -/

/-- One entry of an object, with the gap between its key and the colon. -/
structure Member (α : Type) where
  before : Gap := ∅
  key : List Glyph
  between : Gap := ∅
  value : Padded α

/-- A value with all that its text leaves open. The gap of a container stands after its bracket,
which is the only place for one where the container is empty. -/
inductive Source where
  | null
  | bool (b : Bool)
  | number (n : Numeral)
  | text (glyphs : List Glyph)
  | list (gap : Gap) (items : List (Padded Source))
  | object (gap : Gap) (members : List (Member Source))

namespace Source

mutual
/-- The text of a source. -/
def chars : Source → List Char
  | null => ['n', 'u', 'l', 'l']
  | bool true => ['t', 'r', 'u', 'e']
  | bool false => ['f', 'a', 'l', 's', 'e']
  | number n => n.chars
  | text glyphs => quotedChars glyphs
  | list gap items => '[' :: (gap.chars ++ ([','].intercalate (itemChars items) ++ [']']))
  | object gap members => '{' :: (gap.chars ++ ([','].intercalate (memberChars members) ++ ['}']))

def itemChars : List (Padded Source) → List (List Char)
  | [] => []
  | ⟨before, v, after⟩ :: rest => (before.chars ++ (v.chars ++ after.chars)) :: itemChars rest

def memberChars : List (Member Source) → List (List Char)
  | [] => []
  | ⟨before, key, between, ⟨front, v, after⟩⟩ :: rest =>
    (before.chars ++ (quotedChars key ++ (between.chars ++
      ':' :: (front.chars ++ (v.chars ++ after.chars))))) :: memberChars rest
end

mutual
/-- How deep containers nest. -/
def depth : Source → Nat
  | list _ items => 1 + itemDepth items
  | object _ members => 1 + memberDepth members
  | _ => 0

def itemDepth : List (Padded Source) → Nat
  | [] => 0
  | ⟨_, v, _⟩ :: rest => max v.depth (itemDepth rest)

def memberDepth : List (Member Source) → Nat
  | [] => 0
  | ⟨_, _, _, ⟨_, v, _⟩⟩ :: rest => max v.depth (memberDepth rest)
end

mutual
/-- What a source stands for, key for key; `none` if it has a number that is too large, or half of a
pair without the other. -/
def value? : Source → Option Value
  | null => some (.token .null)
  | bool b => some (.token (.bool b))
  | number n => n.token?.map .token
  | text glyphs => (textOf? glyphs).map fun s => .token (.text s)
  | list _ items => (itemValues? items).map .list
  | object _ members => (memberValues? members).map .table

def itemValues? : List (Padded Source) → Option (List Value)
  | [] => some []
  | ⟨_, v, _⟩ :: rest => do
    let value ← v.value?
    let others ← itemValues? rest
    return value :: others

def memberValues? : List (Member Source) → Option (List (String × Value))
  | [] => some []
  | ⟨_, key, _, ⟨_, v, _⟩⟩ :: rest => do
    let key ← textOf? key
    let value ← v.value?
    let others ← memberValues? rest
    return (key, value) :: others
end

end Source

/-! ## Parts of containers -/

/-- The text of an item, with the gaps around it. -/
def Padded.chars (item : Padded Source) : List Char :=
  item.before.chars ++ (item.body.chars ++ item.after.chars)

/-- The text of a member, with the gaps around it. -/
def Member.chars (m : Member Source) : List Char :=
  m.before.chars ++ (quotedChars m.key ++ (m.between.chars ++ ':' :: m.value.chars))

/-- The text of a document: a source with blanks around it. -/
def Padded.document (d : Padded Source) : String := String.ofList d.chars

/-- The text that a source is, if it is one. -/
def Source.text? : Source → Option String
  | text glyphs => textOf? glyphs
  | _ => none

/-- The key of a member, if it is a text. -/
def Member.key? (m : Member Source) : Option String := textOf? m.key

/-- The keys of an object that are texts. -/
def keys (members : List (Member Source)) : List String := members.filterMap Member.key?

theorem keys_cons {m : Member Source} {key : String} {rest : List (Member Source)}
    (h : m.key? = some key) : keys (m :: rest) = key :: keys rest :=
  List.filterMap_cons_some h

/-- What a member stands for as an entry of a table. -/
def Member.pair? (m : Member Source) : Option (String × Value) := do
  let key ← m.key?
  let value ← m.value.body.value?
  return (key, value)

namespace Source

theorem itemChars_eq_map (items : List (Padded Source)) :
    itemChars items = items.map Padded.chars := by
  induction items with
  | nil => rfl
  | cons item rest ih => rw [itemChars, ih, List.map_cons, Padded.chars]

theorem memberChars_eq_map (members : List (Member Source)) :
    memberChars members = members.map Member.chars := by
  induction members with
  | nil => rfl
  | cons m rest ih => rw [memberChars, ih, List.map_cons, Member.chars, Padded.chars]

theorem itemValues?_eq_mapM (items : List (Padded Source)) :
    itemValues? items = items.mapM (·.body.value?) := by
  induction items with
  | nil => rfl
  | cons item rest ih =>
    rw [itemValues?, ih, List.mapM_cons]

theorem memberValues?_eq_mapM (members : List (Member Source)) :
    memberValues? members = members.mapM Member.pair? := by
  induction members with
  | nil => rfl
  | cons m rest ih =>
    rw [memberValues?, ih, List.mapM_cons, Member.pair?, Member.key?]
    simp only [bind_assoc, pure_bind]

/-- Members that all stand for an entry stand for entries with their keys. -/
theorem exists_memberValues {members : List (Member Source)}
    (h : ∀ m ∈ members, m.key?.isSome ∧ m.value.body.value?.isSome) :
    ∃ entries, memberValues? members = some entries ∧
      ∀ e ∈ entries, ∃ m ∈ members, m.key? = some e.1 := by
  simp only [memberValues?_eq_mapM]
  induction members with
  | nil => exact ⟨[], rfl, fun _ he => absurd he List.not_mem_nil⟩
  | cons m rest ih =>
    obtain ⟨hfirst, hrest⟩ := List.forall_mem_cons.mp h
    obtain ⟨key, hkey⟩ := Option.isSome_iff_exists.mp hfirst.1
    obtain ⟨value, hvalue⟩ := Option.isSome_iff_exists.mp hfirst.2
    obtain ⟨entries, hentries, hkeys⟩ := ih hrest
    have hentry : m.pair? = some (key, value) := by
      rw [Member.pair?, hkey, hvalue]
      rfl
    refine ⟨(key, value) :: entries, ?_, ?_⟩
    · rw [List.mapM_cons, hentry, hentries]
      rfl
    · intro e he
      rcases List.mem_cons.mp he with rfl | he
      · exact ⟨m, List.mem_cons_self, hkey⟩
      · obtain ⟨other, hother, hname⟩ := hkeys e he
        exact ⟨other, List.mem_cons_of_mem _ hother, hname⟩

/-- Items are as deep as the deepest of them. -/
theorem itemDepth_le_iff {items : List (Padded Source)} {d : Nat} :
    itemDepth items ≤ d ↔ ∀ item ∈ items, item.body.depth ≤ d := by
  induction items with
  | nil => simp [itemDepth]
  | cons item rest ih => rw [itemDepth, Nat.max_le, ih, List.forall_mem_cons]

theorem memberDepth_le_iff {members : List (Member Source)} {d : Nat} :
    memberDepth members ≤ d ↔ ∀ m ∈ members, m.value.body.depth ≤ d := by
  induction members with
  | nil => simp [memberDepth]
  | cons m rest ih => rw [memberDepth, Nat.max_le, ih, List.forall_mem_cons]

theorem value?_of_text? {v : Source} {s : String} (h : v.text? = some s) :
    v.value? = some (.token (.text s)) := by
  cases v with
  | text glyphs =>
    rw [text?] at h
    rw [value?, h]
    rfl
  | null | bool b | number n | list gap items | object gap members => cases h

theorem depth_of_text? {v : Source} {s : String} (h : v.text? = some s) : v.depth = 0 := by
  cases v with
  | text glyphs => rfl
  | null | bool b | number n | list gap items | object gap members => cases h

end Source

/-! ## Texts in which nothing needs an escape -/

/-- The characters of a text, each for itself. -/
def plain (s : String)
    (h : s.toList.all (fun c => 0x20 ≤ c.toNat ∧ c ≠ '"' ∧ c ≠ '\\') = true := by decide) :
    List Glyph :=
  s.toList.pmap .plain fun c hc => of_decide_eq_true (List.all_eq_true.mp h c hc)

/-- A member without gaps. -/
def Member.bare (key : List Glyph) (v : Source) : Member Source := { key, value := { body := v } }

end DepositForm.Json
