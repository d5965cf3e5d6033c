import DepositForm.Json.Read
import DepositForm.Proofs.Json.Grammar

/-! # Scanning texts and numbers, however they are written

A text is scanned to the quote that closes it and a number to its last digit, whatever they stand
for and whether they stand for anything. If they do, that is what has been scanned. What has no
value is a fault that only a reader of the value minds, so that a value can always be passed over.

For a text the invariant is that the characters found so far are those that the glyphs so far stand
for, with no half of a pair waiting: a pair is taken in one step of the induction, as in `charsOf?`.
Places do not matter to what is found, which for the digits of an exponent needs a proof of its own
(`token?_eq`).
-/
namespace DepositForm.Json

/-- An announcement that gives a token if there is one, and that can always be passed over. -/
structure Gives (token : Option Token) (a : Announced Fault) : Prop where
  passed : a.pass = .ok ()
  given : ∀ t, token = some t → ∃ place, a = .token t place

theorem Gives.of_token (t : Token) (place : Nat) : Gives (some t) (.token t place) where
  passed := rfl
  given := by
    rintro _ ⟨⟩
    exact ⟨place, rfl⟩

/-! ## Texts -/

section Texts
variable (s : TextState) (place : Nat) (cs : List Char)

theorem scanText_plain {c : Char} (h : 0x20 ≤ c.toNat ∧ c ≠ '"' ∧ c ≠ '\\') :
    scanText s place (c :: cs) =
      scanText ((s.spoil .brokenSurrogate (place + 1)).push c) (place + c.utf8Size) cs := by
  obtain ⟨hcontrol, hquote, hbackslash⟩ := h
  rw [scanText.eq_7]
  · rw [if_neg (Nat.not_lt.mpr hcontrol)]
  all_goals grind

theorem scanText_short {letter c : Char} (h : plainEscape? letter = some c) :
    scanText s place ('\\' :: letter :: cs) =
      scanText ((s.spoil .brokenSurrogate (place + 2)).push c) (place + 2) cs := by
  have hletter : letter ≠ 'u' := by
    rintro rfl
    cases h
  rw [scanText.eq_6]
  · simp only [h]
  all_goals grind

theorem scanText_unit {w x y z : Char} {code : Nat}
    (h : Letter.hexNumber? [w, x, y, z] = some code) :
    scanText s place ('\\' :: 'u' :: w :: x :: y :: z :: cs) =
      scanText (s.pushUnit code (place + 6)) (place + 6) cs := by
  rw [scanText.eq_4, h]

/-- Whatever is known when a glyph is reached, the scan goes on behind it. -/
theorem scanText_glyph (g : Glyph) :
    ∃ s' place', scanText s place (g.chars ++ cs) = scanText s' place' cs := by
  cases g with
  | plain c h => exact ⟨_, _, scanText_plain s place cs h⟩
  | short letter c h => exact ⟨_, _, scanText_short s place cs h⟩
  | unit w x y z code h => exact ⟨_, _, scanText_unit s place cs h⟩

end Texts

/-- A text is scanned to its closing quote, whatever its glyphs. -/
theorem scanText_closed (glyphs : List Glyph) (s : TextState) (place : Nat) (rest : List Char) :
    ∃ text place', scanText s place (glyphs.flatMap Glyph.chars ++ '"' :: rest) =
      .closed text ⟨rest, place'⟩ := by
  induction glyphs generalizing s place with
  | nil => exact ⟨_, place + 1, rfl⟩
  | cons g glyphs ih =>
    rw [List.flatMap_cons, List.append_assoc]
    obtain ⟨s', next, hglyph⟩ :=
      scanText_glyph s place (glyphs.flatMap Glyph.chars ++ '"' :: rest) g
    obtain ⟨text, place', hrest⟩ := ih s' next
    exact ⟨text, place', hglyph.trans hrest⟩

/-- **A text is scanned as the characters that its glyphs stand for.** -/
theorem scanText_charsOf {glyphs : List Glyph} {cs : List Char} (h : charsOf? glyphs = some cs)
    (found : List Char) (place : Nat) (rest : List Char) :
    ∃ place', scanText { found } place (glyphs.flatMap Glyph.chars ++ '"' :: rest) =
      .closed (.ok (String.ofList (found.reverse ++ cs))) ⟨rest, place'⟩ := by
  fun_induction charsOf? glyphs generalizing cs found place with
  | case1 =>
    cases h
    exact ⟨place + 1, by simp [scanText, TextState.spoil, TextState.finish]⟩
  | case2 c hc glyphs ih =>
    obtain ⟨cs, hcs, rfl⟩ := Option.map_eq_some_iff.mp h
    obtain ⟨place', hscan⟩ := ih hcs (c :: found) (place + c.utf8Size)
    refine ⟨place', ?_⟩
    rw [List.reverse_cons, List.append_assoc] at hscan
    exact (scanText_plain _ _ _ hc).trans hscan
  | case3 letter c hc glyphs ih =>
    obtain ⟨cs, hcs, rfl⟩ := Option.map_eq_some_iff.mp h
    obtain ⟨place', hscan⟩ := ih hcs (c :: found) (place + 2)
    refine ⟨place', ?_⟩
    rw [List.reverse_cons, List.append_assoc] at hscan
    exact (scanText_short _ _ _ hc).trans hscan
  | case4 w x y z first hcode hfirst w' x' y' z' second hcode' glyphs hsecond ih =>
    obtain ⟨cs, hcs, rfl⟩ := Option.map_eq_some_iff.mp h
    obtain ⟨place', hscan⟩ := ih hcs (joinHalves first second :: found) (place + 6 + 6)
    refine ⟨place', ?_⟩
    rw [List.reverse_cons, List.append_assoc] at hscan
    have hhalf := scanText_unit { found } place
      ('\\' :: 'u' :: w' :: x' :: y' :: z' :: (glyphs.flatMap Glyph.chars ++ '"' :: rest)) hcode
    have hpair := scanText_unit { found, half := some first } (place + 6)
      (glyphs.flatMap Glyph.chars ++ '"' :: rest) hcode'
    rw [TextState.pushUnit] at hhalf hpair
    simp only [hfirst, hsecond, reduceIte] at hhalf hpair
    exact hhalf.trans (hpair.trans hscan)
  | case5 => cases h
  | case6 => cases h
  | case7 => cases h
  | case8 w x y z code hcode glyphs hfirst hsecond ih =>
    obtain ⟨cs, hcs, rfl⟩ := Option.map_eq_some_iff.mp h
    obtain ⟨place', hscan⟩ := ih hcs (Char.ofNat code :: found) (place + 6)
    refine ⟨place', ?_⟩
    rw [List.reverse_cons, List.append_assoc] at hscan
    have hunit := scanText_unit { found } place (glyphs.flatMap Glyph.chars ++ '"' :: rest) hcode
    rw [TextState.pushUnit] at hunit
    simp only [hfirst, hsecond] at hunit
    exact hunit.trans hscan

/-- **A text is announced as what its glyphs stand for**, from after its opening quote. -/
theorem announceText_glyphs (glyphs : List Glyph) (place : Nat) (rest : List Char) :
    ∃ a place', announceText ⟨glyphs.flatMap Glyph.chars ++ '"' :: rest, place⟩ =
      (a, some ⟨rest, place'⟩) ∧ Gives ((textOf? glyphs).map .text) a := by
  cases htext : charsOf? glyphs with
  | some cs =>
    obtain ⟨place', hscan⟩ := scanText_charsOf htext [] place rest
    refine ⟨.token (.text (String.ofList cs)) place', place', ?_, ?_⟩
    · rw [announceText, hscan]
      rfl
    · rw [textOf?, htext]
      exact .of_token _ place'
  | none =>
    obtain ⟨text, place', hscan⟩ := scanText_closed glyphs {} place rest
    rw [announceText, hscan, textOf?, htext]
    cases text with
    | ok s => exact ⟨_, place', rfl, rfl, fun _ h => nomatch h⟩
    | error f => exact ⟨_, place', rfl, rfl, fun _ h => nomatch h⟩

/-! ## Numbers -/

/-- What may follow a number: nothing that would still belong to it. -/
def EndsNumber (rest : List Char) : Prop :=
  ∀ c ∈ rest.head?, c.isDigit = false ∧ c ≠ '.' ∧ c ≠ 'e' ∧ c ≠ 'E'

/-- What may follow digits: no digit. -/
def EndsDigits (rest : List Char) : Prop := ∀ c ∈ rest.head?, c.isDigit = false

theorem EndsNumber.endsDigits {rest : List Char} (h : EndsNumber rest) : EndsDigits rest :=
  fun c hc => (h c hc).1

/-- Digits are taken up to where they end. -/
theorem span_chars (d : Digits) {rest : List Char} (place : Nat) (h : EndsDigits rest) :
    (Cursor.mk (d.chars ++ rest) place).span Char.isDigit =
      (d.chars, ⟨rest, place + d.chars.length⟩) := by
  have hdigits : ∀ c ∈ d.chars, c.isDigit = true := fun c hc => d.isDigit_of_mem hc
  have hend : rest.takeWhile Char.isDigit = [] ∧ rest.dropWhile Char.isDigit = rest := by
    cases rest with
    | nil => exact ⟨rfl, rfl⟩
    | cons c rest =>
      have hc : c.isDigit = false := h c rfl
      simp [hc]
  simp only [Cursor.span, List.takeWhile_append_of_pos hdigits,
    List.dropWhile_append_of_pos hdigits, hend.1, hend.2, List.append_nil]

/-- Where the digits of an exponent stand does not matter to their value. -/
theorem toOption_exponentValue (digits : List Char) (value place place' : Nat) :
    (exponentValue value place digits).toOption = (exponentValue value place' digits).toOption := by
  induction digits generalizing value place place' with
  | nil => rfl
  | cons c digits ih =>
    rw [exponentValue, exponentValue]
    split
    · rfl
    · exact ih _ _ _

/-- The scan from where an exponent could begin, once the digits before it are known. -/
def scanExponent (negative : Bool) (whole : List Char) (fraction : Option (List Char))
    (c : Cursor) : NumberScan :=
  match exponentSign c with
  | none => .closed (NumberText.token ⟨negative, whole, fraction, none⟩ c.place) c
  | some (down, start) =>
    let (digits, next) := start.span Char.isDigit
    let exponent := some (down, digits, start.place)
    if digits.isEmpty then missingDigit start
    else .closed (NumberText.token ⟨negative, whole, fraction, exponent⟩ next.place) next

theorem scanAfterWhole_eq (negative : Bool) (whole : List Char) (c : Cursor) :
    scanAfterWhole negative whole c =
      match c.rest with
      | '.' :: rest =>
        let start : Cursor := ⟨rest, c.place + 1⟩
        let (digits, next) := start.span Char.isDigit
        if digits.isEmpty then missingDigit start
        else scanExponent negative whole (some digits) next
      | _ => scanExponent negative whole none c := rfl

namespace Numeral

variable (n : Numeral)

/-- Where a number stands does not matter to what it stands for. -/
theorem token?_eq (start place : Nat) : ((n.parts start).token place).toOption = n.token? := by
  unfold token? NumberText.token
  cases hexponent : n.exponent with
  | none =>
    simp only [parts, hexponent, Option.map_none]
    split
    · rfl
    · split <;> rfl
  | some p =>
    simp only [parts, hexponent, Option.map_some, reduceCtorEq, false_implies, implies_true]
    have hvalue := toOption_exponentValue p.digits.chars 0 start 0
    cases hstart : exponentValue 0 start p.digits.chars with
    | ok e =>
      cases hzero : exponentValue 0 0 p.digits.chars with
      | ok e' =>
        rw [hstart, hzero] at hvalue
        cases hvalue
        simp only
        split <;> rfl
      | error f =>
        rw [hstart, hzero] at hvalue
        cases hvalue
    | error f =>
      cases hzero : exponentValue 0 0 p.digits.chars with
      | ok e' =>
        rw [hstart, hzero] at hvalue
        cases hvalue
      | error f' =>
        simp only
        split <;> rfl

variable {rest : List Char}

theorem endsDigits_exponentChars (h : EndsNumber rest) :
    EndsDigits (n.exponentChars ++ rest) := by
  unfold exponentChars
  split
  · exact h.endsDigits
  · rename_i p _
    rintro c ⟨⟩
    rcases p.letter_eq with hletter | hletter
    · rw [hletter]
      decide
    · rw [hletter]
      decide

theorem exponentChars_ne_point (h : EndsNumber rest) (cs : List Char) :
    n.exponentChars ++ rest ≠ '.' :: cs := by
  intro hpoint
  unfold exponentChars at hpoint
  split at hpoint
  · rw [List.nil_append] at hpoint
    exact (h '.' (by rw [hpoint]; rfl)).2.1 rfl
  · rename_i p _
    have hletter : p.letter = '.' := (List.cons.inj hpoint).1
    rcases p.letter_eq with he | hE
    · exact absurd (he.symm.trans hletter) (by decide)
    · exact absurd (hE.symm.trans hletter) (by decide)

theorem endsDigits_fractionChars (h : EndsNumber rest) :
    EndsDigits (n.fractionChars ++ (n.exponentChars ++ rest)) := by
  unfold fractionChars
  split
  · exact n.endsDigits_exponentChars h
  · rintro c ⟨⟩
    decide

/-- The letter and the sign of an exponent are seen, if there is one. -/
theorem exponentSign_chars (place : Nat) (h : EndsNumber rest) :
    exponentSign ⟨n.exponentChars ++ rest, place⟩ =
      n.exponent.map fun p => (p.sign == some true,
        ⟨p.digits.chars ++ rest, place + 1 + p.signChars.length⟩) := by
  unfold exponentChars
  cases hexponent : n.exponent with
  | none =>
    cases rest with
    | nil => rfl
    | cons c rest =>
      obtain ⟨-, -, he, hE⟩ := h c rfl
      simp [exponentSign, he, hE]
  | some p =>
    have hletter : (decide (p.letter = 'e') || decide (p.letter = 'E')) = true := by
      simpa using p.letter_eq
    have hdigit : ∀ c : Char, c.isDigit = false → p.digits.first ≠ c := by
      rintro c hc rfl
      exact Bool.false_ne_true (hc.symm.trans (p.digits.isDigit_of_mem List.mem_cons_self))
    simp only [Option.map_some, Power.chars, List.cons_append, exponentSign, hletter, reduceIte,
      Power.signChars]
    rcases p.sign with _ | _ | _
    · simp only [Digits.chars, List.nil_append, List.cons_append]
      split
      · rename_i hminus
        exact absurd (List.cons.inj hminus).1 (hdigit '-' rfl)
      · rename_i hplus
        exact absurd (List.cons.inj hplus).1 (hdigit '+' rfl)
      · rfl
    · rfl
    · rfl

/-- An exponent, or none, is scanned to its end. -/
theorem scanExponent_chars (fraction : Option (List Char)) (place : Nat) (h : EndsNumber rest) :
    ∃ start place', scanExponent n.negative n.whole.chars fraction
        ⟨n.exponentChars ++ rest, place⟩ =
      .closed (NumberText.token
        ⟨n.negative, n.whole.chars, fraction, (n.parts start).exponent⟩ place') ⟨rest, place'⟩ := by
  rw [scanExponent, n.exponentSign_chars place h]
  unfold parts
  cases hexponent : n.exponent with
  | none =>
    have hchars : n.exponentChars = [] := by rw [exponentChars, hexponent]
    refine ⟨place, place, ?_⟩
    rw [hchars]
    rfl
  | some p =>
    refine ⟨place + 1 + p.signChars.length,
      place + 1 + p.signChars.length + p.digits.chars.length, ?_⟩
    simp only [Option.map_some, span_chars _ _ h.endsDigits]
    rfl

/-- What follows the digits before the point is scanned to its end. -/
theorem scanAfterWhole_chars (place : Nat) (h : EndsNumber rest) :
    ∃ start place', scanAfterWhole n.negative n.whole.chars
        ⟨n.fractionChars ++ (n.exponentChars ++ rest), place⟩ =
      .closed ((n.parts start).token place') ⟨rest, place'⟩ := by
  rw [scanAfterWhole_eq, fractionChars]
  cases hfraction : n.fraction with
  | none =>
    obtain ⟨start, place', hscan⟩ := n.scanExponent_chars none place h
    refine ⟨start, place', ?_⟩
    have hparts : ⟨n.negative, n.whole.chars, none, (n.parts start).exponent⟩ = n.parts start := by
      rw [parts, hfraction]
      rfl
    rw [hparts] at hscan
    rw [List.nil_append]
    dsimp only
    split
    · rename_i hpoint
      exact absurd hpoint (n.exponentChars_ne_point h _)
    · exact hscan
  | some digits =>
    obtain ⟨start, place', hscan⟩ := n.scanExponent_chars (some digits.chars)
      (place + 1 + digits.chars.length) h
    refine ⟨start, place', ?_⟩
    have hparts : ⟨n.negative, n.whole.chars, some digits.chars, (n.parts start).exponent⟩ =
        n.parts start := by
      rw [parts, hfraction]
      rfl
    rw [hparts] at hscan
    simp only [List.cons_append, span_chars _ _ (n.endsDigits_exponentChars h)]
    exact hscan

/-- **A number is scanned to its last digit**, with what its parts stand for. -/
theorem scanNumber_chars (place : Nat) (h : EndsNumber rest) :
    ∃ start place', scanNumber ⟨n.chars ++ rest, place⟩ =
      .closed ((n.parts start).token place') ⟨rest, place'⟩ := by
  have hunsigned : ∀ place, ∃ start place',
      scanUnsigned n.negative ⟨n.unsignedChars ++ rest, place⟩ =
        .closed ((n.parts start).token place') ⟨rest, place'⟩ := by
    intro place
    rw [unsignedChars, List.append_assoc, List.append_assoc, scanUnsigned,
      span_chars _ _ (n.endsDigits_fractionChars h)]
    dsimp only
    split
    · rename_i hnil
      exact absurd hnil (List.cons_ne_nil _ _)
    · rename_i hzero
      obtain ⟨hfirst, hothers⟩ := List.cons.inj hzero
      rw [n.zero_alone hfirst] at hothers
      cases hothers
    · exact n.scanAfterWhole_chars _ h
  rw [chars]
  cases hnegative : n.negative with
  | true =>
    rw [hnegative] at hunsigned
    exact hunsigned (place + 1)
  | false =>
    rw [hnegative] at hunsigned
    have hdigit : n.whole.first ≠ '-' := by
      intro hminus
      have hfirst := n.whole.isDigit_of_mem List.mem_cons_self
      rw [hminus] at hfirst
      cases hfirst
    rw [scanNumber]
    dsimp only
    split
    · rename_i hminus
      exact absurd (List.cons.inj hminus).1 hdigit
    · exact hunsigned place

/-- A number begins with a sign or a digit. -/
theorem chars_eq_cons : ∃ c cs, n.chars = c :: cs ∧ (c = '-' ∨ c.isDigit = true) := by
  rw [chars]
  cases n.negative with
  | true => exact ⟨'-', _, rfl, .inl rfl⟩
  | false => exact ⟨n.whole.first, _, rfl, .inr (n.whole.isDigit_of_mem List.mem_cons_self)⟩

/-- **A number is announced as what it stands for.** -/
theorem announceNumber_chars (place : Nat) (h : EndsNumber rest) :
    ∃ a place', announceNumber ⟨n.chars ++ rest, place⟩ = (a, some ⟨rest, place'⟩) ∧
      Gives n.token? a := by
  obtain ⟨start, place', hscan⟩ := n.scanNumber_chars place h
  have htoken := n.token?_eq start place'
  rw [announceNumber, hscan, ← htoken]
  cases (n.parts start).token place' with
  | ok t => exact ⟨_, place', rfl, .of_token t place'⟩
  | error f => exact ⟨_, place', rfl, rfl, fun _ h => nomatch h⟩

end Numeral
end DepositForm.Json
