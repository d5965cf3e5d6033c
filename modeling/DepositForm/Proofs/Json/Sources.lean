import DepositForm.Proofs.Json.Tokens

/-! # Announcing a source

The text of a source is announced as what the source holds, item for item and member for member
(`announceValue_source`), and nothing of the text is left but what follows it. Blanks make no
difference: every step of the announcement passes over those in front of it, so a gap before a step
can be taken off (`skipBlanks_gap`), and a gap after a value is in front of the next step.

The induction goes over the source. What follows a value in its container is part of the text that
the value is scanned from, so every statement is about a source with some text after it, and says
that this text is left (`remaining`). The fuel that is needed is at most the length of the text.
-/
namespace DepositForm.Json

/-! ## Blanks -/

theorem skipBlanks_of_not_blank {c : Char} {rest : List Char} {place : Nat}
    (h : Cursor.skipBlanks.isBlank c = false) :
    (Cursor.mk (c :: rest) place).skipBlanks = ⟨c :: rest, place⟩ := by
  simp [Cursor.skipBlanks, h]

theorem isBlank_of_isDigit {c : Char} (h : c.isDigit = true) :
    Cursor.skipBlanks.isBlank c = false := by
  have hcode : 48 ≤ c.toNat := by
    simp [Char.isDigit, UInt32.le_iff_toNat_le] at h
    exact h.1
  have hne : ∀ d : Char, d.toNat < 48 → c ≠ d := by
    rintro d hd rfl
    omega
  simp [Cursor.skipBlanks.isBlank, hne]

theorem skipBlanks_gap (g : Gap) (cs : List Char) (place : Nat) :
    (Cursor.mk (g.chars ++ cs) place).skipBlanks =
      (Cursor.mk cs (place + g.chars.length)).skipBlanks := by
  have hblank : ∀ c ∈ g.chars, Cursor.skipBlanks.isBlank c = true := fun c hc => g.isBlank_of_mem hc
  simp only [Cursor.skipBlanks, List.takeWhile_append_of_pos hblank,
    List.dropWhile_append_of_pos hblank, List.length_append, Cursor.mk.injEq, true_and]
  omega

section Gaps
variable (fuel depth place : Nat) (first : Bool) (g : Gap) (cs : List Char)

theorem announceValue_gap :
    announceValue fuel depth ⟨g.chars ++ cs, place⟩ =
      announceValue fuel depth ⟨cs, place + g.chars.length⟩ := by
  rw [announceValue.eq_def, skipBlanks_gap, ← announceValue.eq_def]

theorem announceItems_gap :
    announceItems fuel depth first ⟨g.chars ++ cs, place⟩ =
      announceItems fuel depth first ⟨cs, place + g.chars.length⟩ := by
  rw [announceItems, skipBlanks_gap, ← announceItems]

theorem announceEntries_gap :
    announceEntries fuel depth first ⟨g.chars ++ cs, place⟩ =
      announceEntries fuel depth first ⟨cs, place + g.chars.length⟩ := by
  rw [announceEntries, skipBlanks_gap, ← announceEntries]

end Gaps

/-- A number does not go on with blanks. -/
theorem EndsNumber.gap {rest : List Char} (h : EndsNumber rest) (g : Gap) :
    EndsNumber (g.chars ++ rest) := by
  obtain ⟨blanks, hblank⟩ := g
  cases blanks with
  | nil => exact h
  | cons c blanks =>
    rintro d ⟨⟩
    have hc := List.all_eq_true.mp hblank c List.mem_cons_self
    simp only [Cursor.skipBlanks.isBlank, Bool.or_eq_true, decide_eq_true_eq] at hc
    rcases hc with ((rfl | rfl) | rfl) | rfl <;> decide

/-! ## What follows a value -/

section Remaining
variable {rest : List Char}

/-- What follows a value in a container: the other values, each after a comma, the character that
closes the container, and the rest of the text. -/
def remaining (others : List (List Char)) (close : Char) (rest : List Char) : List Char :=
  others.flatMap (',' :: ·) ++ close :: rest

/-- Values with commas between them, as a value and what follows it. -/
theorem intercalate_comma (first : List Char) (others : List (List Char)) :
    [','].intercalate (first :: others) = first ++ others.flatMap (',' :: ·) := by
  induction others generalizing first with
  | nil => simp
  | cons second others ih => rw [List.intercalate_cons_cons, ih]; simp

@[simp] theorem remaining_nil (close : Char) : remaining [] close rest = close :: rest := rfl

@[simp] theorem remaining_cons (value : List Char) (others : List (List Char)) (close : Char) :
    remaining (value :: others) close rest = ',' :: (value ++ remaining others close rest) := by
  simp [remaining]

theorem length_remaining_cons (value : List Char) (others : List (List Char)) (close : Char) :
    (remaining (value :: others) close []).length =
      value.length + (remaining others close []).length + 1 := by
  simp [remaining_cons]

/-- The fuel for a value and what follows it in its container is, one step later, enough for
either. -/
theorem exists_fuel {value : List Char} {others : List (List Char)} {close : Char} {fuel : Nat}
    (h : value.length + (remaining others close []).length ≤ fuel) :
    ∃ f, fuel = f + 1 ∧ value.length ≤ f ∧ (remaining others close []).length ≤ f + 1 := by
  -- What follows has at least the character that closes the container.
  have hpos : 0 < (remaining others close []).length := by simp [remaining]
  exact ⟨fuel - 1, by omega, by omega, by omega⟩

theorem endsNumber_cons {c : Char} (h : c = ',' ∨ c = ']' ∨ c = '}') :
    EndsNumber (c :: rest) := by
  rintro d hd
  cases hd
  rcases h with rfl | rfl | rfl <;> decide

/-- What follows a value in a container does not go on with it. -/
theorem endsNumber_remaining {others : List (List Char)} {close : Char}
    (h : close = ']' ∨ close = '}') : EndsNumber (remaining others close rest) := by
  cases others with
  | nil => exact endsNumber_cons (.inr h)
  | cons _ _ => rw [remaining_cons]; exact endsNumber_cons (.inl rfl)

end Remaining

/-! ## What is announced -/

namespace Source

mutual
/-- The announcement says what the source holds, with `depth` containers around it: a container may
be entered as long as the limit is not reached, a value is given if there is one, and everything can
be passed over. Places are left open. -/
def Shows (depth : Nat) : Source → Announced Fault → Prop
  | null, a => Gives (some .null) a
  | bool b, a => Gives (some (.bool b)) a
  | number n, a => Gives n.token? a
  | text glyphs, a => Gives ((textOf? glyphs).map .text) a
  | list _ items, a => ∃ opening limit shown, a = .sequence opening limit shown ∧
      (depth + 1 < depthLimit → limit = none) ∧ ItemsShow (depth + 1) items shown
  | object _ members, a => ∃ opening limit shown, a = .mapping opening limit shown ∧
      (depth + 1 < depthLimit → limit = none) ∧ MembersShow (depth + 1) members shown

def ItemsShow (depth : Nat) : List (Padded Source) → Announced.Items Fault → Prop
  | [], shown => ∃ place, shown = .done place
  | ⟨_, v, _⟩ :: rest, shown => ∃ unread item more,
      shown = .next unread item more ∧ v.Shows depth item ∧ ItemsShow depth rest more

def MembersShow (depth : Nat) : List (Member Source) → Announced.Entries Fault → Prop
  | [], shown => ∃ place, shown = .done place
  | ⟨_, key, _, ⟨_, v, _⟩⟩ :: rest, shown => ∃ unread name afterKey value more,
      shown = .next unread name afterKey value more ∧ Gives ((textOf? key).map .text) name ∧
        v.Shows depth value ∧ MembersShow depth rest more
end

/-- The text of a source begins with a character that begins a value. -/
theorem chars_eq_cons (v : Source) :
    ∃ c cs, v.chars = c :: cs ∧ Cursor.skipBlanks.isBlank c = false ∧ c ≠ ']' := by
  cases v with
  | null => exact ⟨'n', _, rfl, by decide⟩
  | bool b => cases b <;> exact ⟨_, _, rfl, by decide⟩
  | number n =>
    rw [chars, Numeral.chars]
    cases n.negative with
    | true => exact ⟨'-', _, rfl, by decide⟩
    | false =>
      have hdigit : n.whole.first.isDigit = true := n.whole.isDigit_of_mem List.mem_cons_self
      refine ⟨n.whole.first, _, rfl, isBlank_of_isDigit hdigit, ?_⟩
      intro hclose
      rw [hclose] at hdigit
      cases hdigit
  | text glyphs => exact ⟨'"', _, rfl, by decide⟩
  | list gap items => exact ⟨'[', _, rfl, by decide⟩
  | object gap members => exact ⟨'{', _, rfl, by decide⟩

end Source

/-! ## Values without parts -/

/-- A value that begins with a sign or a digit is a number. -/
theorem announceValue_number {fuel depth place : Nat} {c : Char} {cs : List Char}
    (h : c = '-' ∨ c.isDigit = true) :
    announceValue fuel depth ⟨c :: cs, place⟩ = announceNumber ⟨c :: cs, place⟩ := by
  have hblank : Cursor.skipBlanks.isBlank c = false := by
    rcases h with rfl | h
    · rfl
    · exact isBlank_of_isDigit h
  have hnot : ∀ d : Char, d ≠ '-' → d.isDigit = false → c ≠ d := by
    rintro d hminus hdigit rfl
    rcases h with h | h
    · exact hminus h
    · exact Bool.false_ne_true (hdigit.symm.trans h)
  have htest : (decide (c = '-') || c.isDigit) = true := by simpa using h
  rw [announceValue.eq_def, skipBlanks_of_not_blank hblank]
  dsimp only
  split
  case h_1 hcons => exact absurd hcons (List.cons_ne_nil _ _)
  case h_8 x tail _ hcons =>
    rw [(List.cons.inj hcons).1] at htest
    exact if_pos htest
  all_goals
    rename_i hcons
    exact absurd (List.cons.inj hcons).1 (hnot _ (by decide) (by decide))

/-! ## One more container, item or member

Given that a value is announced, and what follows it, so is an item or a member with that value. -/

section Steps
variable {fuel depth : Nat} {rest : List Char}

theorem depthFault_eq_none {c : Cursor} (h : depth + 1 < depthLimit) : depthFault depth c = none :=
  if_pos h

theorem announceValue_bracket (place : Nat) (cs : List Char) :
    announceValue (fuel + 1) depth ⟨'[' :: cs, place⟩ =
      (.sequence place (depthFault depth ⟨'[' :: cs, place⟩)
        (announceItems fuel (depth + 1) true ⟨cs, place + 1⟩).1,
          (announceItems fuel (depth + 1) true ⟨cs, place + 1⟩).2) := by
  rw [announceValue.eq_def, skipBlanks_of_not_blank (by decide)]
  rfl

theorem announceValue_brace (place : Nat) (cs : List Char) :
    announceValue (fuel + 1) depth ⟨'{' :: cs, place⟩ =
      (.mapping place (depthFault depth ⟨'{' :: cs, place⟩)
        (announceEntries fuel (depth + 1) true ⟨cs, place + 1⟩).1,
          (announceEntries fuel (depth + 1) true ⟨cs, place + 1⟩).2) := by
  rw [announceValue.eq_def, skipBlanks_of_not_blank (by decide)]
  rfl

theorem announceItems_close (place : Nat) (first : Bool) :
    announceItems fuel depth first ⟨']' :: rest, place⟩ =
      (.done (place + 1), some ⟨rest, place + 1⟩) := by
  rw [announceItems, skipBlanks_of_not_blank (by decide)]
  rfl

theorem announceEntries_close (place : Nat) (first : Bool) :
    announceEntries fuel depth first ⟨'}' :: rest, place⟩ =
      (.done (place + 1), some ⟨rest, place + 1⟩) := by
  rw [announceEntries, skipBlanks_of_not_blank (by decide)]
  rfl

theorem announceItems_first {place : Nat} {c : Char} {cs : List Char}
    (hblank : Cursor.skipBlanks.isBlank c = false) (hclose : c ≠ ']') :
    announceItems fuel depth true ⟨c :: cs, place⟩ =
      announceItem fuel depth ⟨c :: cs, place⟩ ⟨c :: cs, place⟩ := by
  rw [announceItems, skipBlanks_of_not_blank hblank]
  dsimp only
  split
  case h_1 hcons => exact absurd hcons (List.cons_ne_nil _ _)
  case h_2 hcons => exact absurd (List.cons.inj hcons).1 hclose
  case h_3 => rfl

theorem announceItems_after_comma {place : Nat} (g : Gap) {c : Char} {cs : List Char}
    (hblank : Cursor.skipBlanks.isBlank c = false) (hclose : c ≠ ']') :
    announceItems fuel depth false ⟨',' :: (g.chars ++ c :: cs), place⟩ =
      announceItem fuel depth ⟨c :: cs, place + 1 + g.chars.length⟩
        ⟨c :: cs, place + 1 + g.chars.length⟩ := by
  rw [announceItems, skipBlanks_of_not_blank (by decide)]
  simp [skipBlanks_gap, skipBlanks_of_not_blank hblank, hclose]

theorem announceEntries_first (place : Nat) (cs : List Char) :
    announceEntries fuel depth true ⟨'"' :: cs, place⟩ =
      announceEntry fuel depth ⟨.trailingCharacters, place + 1⟩ ⟨cs, place + 1⟩ := by
  rw [announceEntries, skipBlanks_of_not_blank (by decide)]
  rfl

theorem announceEntries_after_comma {place : Nat} (g : Gap) (cs : List Char) :
    announceEntries fuel depth false ⟨',' :: (g.chars ++ '"' :: cs), place⟩ =
      announceEntry fuel depth ⟨.trailingComma, place + 1⟩
        ⟨cs, place + 1 + g.chars.length + 1⟩ := by
  rw [announceEntries, skipBlanks_of_not_blank (by decide)]
  have hquote : Cursor.skipBlanks.isBlank '"' = false := by decide
  simp [skipBlanks_gap, skipBlanks_of_not_blank hquote, Cursor.fault, Cursor.seen]

theorem announceItem_source {v : Source} (after : Gap) {others : List (Padded Source)}
    (hvalue : ∀ place rest, EndsNumber rest →
      ∃ a place', announceValue fuel depth ⟨v.chars ++ rest, place⟩ = (a, some ⟨rest, place'⟩) ∧
        v.Shows depth a)
    (hothers : ∀ place, ∃ shown place',
      announceItems fuel depth false ⟨remaining (Source.itemChars others) ']' rest, place⟩ =
        (shown, some ⟨rest, place'⟩) ∧ Source.ItemsShow depth others shown)
    (stopped : Cursor) (place : Nat) :
    ∃ shown place', announceItem (fuel + 1) depth stopped
        ⟨v.chars ++ (after.chars ++ remaining (Source.itemChars others) ']' rest), place⟩ =
      (shown, some ⟨rest, place'⟩) ∧
        ∀ before, Source.ItemsShow depth (⟨before, v, after⟩ :: others) shown := by
  have hends : EndsNumber (after.chars ++ remaining (Source.itemChars others) ']' rest) :=
    (endsNumber_remaining (.inl rfl)).gap after
  obtain ⟨item, next, hitem, hv⟩ := hvalue place _ hends
  obtain ⟨more, place', hmore, hrest⟩ := hothers (next + after.chars.length)
  refine ⟨.next (some (stopped.fault .trailingCharacters)) item more, place', ?_,
    fun _ => ⟨_, item, more, rfl, hv, hrest⟩⟩
  rw [announceItem, hitem]
  simp only [announceItems_gap, hmore]

theorem announceEntry_source (key : List Glyph) (between front after : Gap) {v : Source}
    {others : List (Member Source)}
    (hvalue : ∀ place rest, EndsNumber rest →
      ∃ a place', announceValue fuel depth ⟨v.chars ++ rest, place⟩ = (a, some ⟨rest, place'⟩) ∧
        v.Shows depth a)
    (hothers : ∀ place, ∃ shown place',
      announceEntries fuel depth false ⟨remaining (Source.memberChars others) '}' rest, place⟩ =
        (shown, some ⟨rest, place'⟩) ∧ Source.MembersShow depth others shown)
    (unread : Fault) (place : Nat) :
    ∃ shown place', announceEntry (fuel + 1) depth unread
        ⟨key.flatMap Glyph.chars ++ '"' :: (between.chars ++ ':' :: (front.chars ++
          (v.chars ++ (after.chars ++ remaining (Source.memberChars others) '}' rest)))), place⟩ =
      (shown, some ⟨rest, place'⟩) ∧
        ∀ before, Source.MembersShow depth (⟨before, key, between, ⟨front, v, after⟩⟩ :: others)
          shown := by
  have hends : EndsNumber (after.chars ++ remaining (Source.memberChars others) '}' rest) :=
    (endsNumber_remaining (.inr rfl)).gap after
  obtain ⟨name, colon, hkey, hname⟩ := announceText_glyphs key place (between.chars ++ ':' ::
    (front.chars ++ (v.chars ++ (after.chars ++ remaining (Source.memberChars others) '}' rest))))
  obtain ⟨value, next, hitem, hv⟩ :=
    hvalue (colon + between.chars.length + 1 + front.chars.length) _ hends
  obtain ⟨more, place', hmore, hrest⟩ := hothers (next + after.chars.length)
  have hcolon : Cursor.skipBlanks.isBlank ':' = false := by decide
  refine ⟨.next (some unread) name (colon + between.chars.length) value more, place', ?_,
    fun _ => ⟨_, name, _, value, more, rfl, hname, hv, hrest⟩⟩
  rw [announceEntry, hkey]
  simp only [skipBlanks_gap, skipBlanks_of_not_blank hcolon, announceValue_gap, hitem,
    announceEntries_gap, hmore]
  rfl

end Steps

/-! ## The whole source -/

theorem intercalate_itemChars (before : Gap) (v : Source) (after : Gap)
    (others : List (Padded Source)) (close : Char) (rest : List Char) :
    [','].intercalate (Source.itemChars (⟨before, v, after⟩ :: others)) ++ close :: rest =
      before.chars ++ (v.chars ++ (after.chars ++
        remaining (Source.itemChars others) close rest)) := by
  rw [Source.itemChars, intercalate_comma, remaining]
  simp only [List.append_assoc]

theorem intercalate_memberChars (before : Gap) (key : List Glyph) (between front : Gap) (v : Source)
    (after : Gap) (others : List (Member Source)) (close : Char) (rest : List Char) :
    [','].intercalate (Source.memberChars (⟨before, key, between, ⟨front, v, after⟩⟩ :: others)) ++
        close :: rest =
      before.chars ++ '"' :: (key.flatMap Glyph.chars ++ '"' :: (between.chars ++ ':' ::
        (front.chars ++ (v.chars ++ (after.chars ++
          remaining (Source.memberChars others) close rest))))) := by
  rw [Source.memberChars, intercalate_comma, remaining]
  simp only [quotedChars, List.append_assoc, List.cons_append, List.nil_append]

mutual
/-- **A source is announced as what it holds**, and what follows it is left. -/
theorem announceValue_source : ∀ (v : Source) {fuel : Nat} (depth place : Nat) (rest : List Char),
    v.chars.length ≤ fuel → EndsNumber rest →
    ∃ a place', announceValue fuel depth ⟨v.chars ++ rest, place⟩ = (a, some ⟨rest, place'⟩) ∧
      v.Shows depth a
  | .null, fuel, depth, place, rest, _, hrest => by
    refine ⟨_, place + 4, ?_, .of_token _ (place + 4)⟩
    rw [Source.chars, announceValue.eq_def]
    simp [skipBlanks_of_not_blank, Cursor.skipBlanks.isBlank, announceWord]
  | .bool true, fuel, depth, place, rest, _, hrest => by
    refine ⟨_, place + 4, ?_, .of_token _ (place + 4)⟩
    rw [Source.chars, announceValue.eq_def]
    simp [skipBlanks_of_not_blank, Cursor.skipBlanks.isBlank, announceWord]
  | .bool false, fuel, depth, place, rest, _, hrest => by
    refine ⟨_, place + 5, ?_, .of_token _ (place + 5)⟩
    rw [Source.chars, announceValue.eq_def]
    simp [skipBlanks_of_not_blank, Cursor.skipBlanks.isBlank, announceWord]
  | .number n, fuel, depth, place, rest, _, hrest => by
    obtain ⟨a, place', hscan, hgives⟩ := n.announceNumber_chars place hrest
    obtain ⟨c, cs, hcons, hc⟩ := n.chars_eq_cons
    refine ⟨a, place', ?_, hgives⟩
    rw [Source.chars, hcons, List.cons_append, announceValue_number hc, ← List.cons_append, ← hcons,
      hscan]
  | .text glyphs, fuel, depth, place, rest, _, hrest => by
    obtain ⟨a, place', htext, hgives⟩ := announceText_glyphs glyphs (place + 1) rest
    have hquote : Cursor.skipBlanks.isBlank '"' = false := by decide
    refine ⟨a, place', ?_, hgives⟩
    rw [Source.chars, quotedChars, announceValue.eq_def]
    simp [skipBlanks_of_not_blank hquote, htext]
  | .list gap items, 0, depth, place, rest, hfuel, _ => by
    simp [Source.chars] at hfuel
  | .list gap items, fuel + 1, depth, place, rest, hfuel, _ => by
    have hbody :
        (gap.chars ++ ([','].intercalate (Source.itemChars items) ++ [']'])).length ≤ fuel :=
      Nat.le_of_succ_le_succ hfuel
    obtain ⟨shown, place', hitems, hshown⟩ :=
      announceItems_source gap items (depth + 1) (place + 1) rest hbody
    rw [Source.chars, List.cons_append, List.append_assoc, List.append_assoc,
      List.singleton_append, announceValue_bracket, hitems]
    exact ⟨_, place', rfl, place, _, shown, rfl, depthFault_eq_none, hshown⟩
  | .object gap members, 0, depth, place, rest, hfuel, _ => by
    simp [Source.chars] at hfuel
  | .object gap members, fuel + 1, depth, place, rest, hfuel, _ => by
    have hbody :
        (gap.chars ++ ([','].intercalate (Source.memberChars members) ++ ['}'])).length ≤ fuel :=
      Nat.le_of_succ_le_succ hfuel
    obtain ⟨shown, place', hmembers, hshown⟩ :=
      announceMembers_source gap members (depth + 1) (place + 1) rest hbody
    rw [Source.chars, List.cons_append, List.append_assoc, List.append_assoc,
      List.singleton_append, announceValue_brace, hmembers]
    exact ⟨_, place', rfl, place, _, shown, rfl, depthFault_eq_none, hshown⟩

/-- The items of a list, from after its bracket. -/
theorem announceItems_source : ∀ (gap : Gap) (items : List (Padded Source)) {fuel : Nat}
    (depth place : Nat) (rest : List Char),
    (gap.chars ++ ([','].intercalate (Source.itemChars items) ++ [']'])).length ≤ fuel →
    ∃ shown place', announceItems fuel depth true
        ⟨gap.chars ++ ([','].intercalate (Source.itemChars items) ++ ']' :: rest), place⟩ =
      (shown, some ⟨rest, place'⟩) ∧ Source.ItemsShow depth items shown
  | gap, [], fuel, depth, place, rest, _ => by
    rw [Source.itemChars, List.intercalate_nil, List.nil_append, announceItems_gap,
      announceItems_close]
    exact ⟨_, _, rfl, _, rfl⟩
  | gap, ⟨before, v, after⟩ :: others, fuel, depth, place, rest, hfuel => by
    rw [intercalate_itemChars] at hfuel ⊢
    simp only [List.length_append] at hfuel
    have hbound : v.chars.length + (remaining (Source.itemChars others) ']' []).length ≤ fuel := by
      omega
    obtain ⟨fuel, rfl, hv, hothers⟩ := exists_fuel hbound
    obtain ⟨c, cs, hcons, hblank, hclose⟩ := v.chars_eq_cons
    obtain ⟨shown, place', hitem, hshown⟩ := announceItem_source after
      (fun place rest h => announceValue_source v depth place rest hv h)
      (fun place => announceItems_source_tail others depth place rest hothers)
      ⟨v.chars ++ (after.chars ++ remaining (Source.itemChars others) ']' rest),
        place + gap.chars.length + before.chars.length⟩
      (place + gap.chars.length + before.chars.length)
    refine ⟨shown, place', ?_, hshown before⟩
    rw [← hitem, announceItems_gap, announceItems_gap, hcons, List.cons_append,
      announceItems_first hblank hclose]

/-- The items of a list that are still to come, each after its comma. -/
theorem announceItems_source_tail : ∀ (items : List (Padded Source)) {fuel : Nat}
    (depth place : Nat) (rest : List Char),
    (remaining (Source.itemChars items) ']' []).length ≤ fuel + 1 →
    ∃ shown place', announceItems fuel depth false
        ⟨remaining (Source.itemChars items) ']' rest, place⟩ =
      (shown, some ⟨rest, place'⟩) ∧ Source.ItemsShow depth items shown
  | [], fuel, depth, place, rest, _ => by
    rw [Source.itemChars, remaining_nil, announceItems_close]
    exact ⟨_, _, rfl, _, rfl⟩
  | ⟨before, v, after⟩ :: others, fuel, depth, place, rest, hfuel => by
    rw [Source.itemChars, length_remaining_cons] at hfuel
    simp only [List.length_append] at hfuel
    have hbound : v.chars.length + (remaining (Source.itemChars others) ']' []).length ≤ fuel := by
      omega
    obtain ⟨fuel, rfl, hv, hothers⟩ := exists_fuel hbound
    obtain ⟨c, cs, hcons, hblank, hclose⟩ := v.chars_eq_cons
    obtain ⟨shown, place', hitem, hshown⟩ := announceItem_source after
      (fun place rest h => announceValue_source v depth place rest hv h)
      (fun place => announceItems_source_tail others depth place rest hothers)
      ⟨v.chars ++ (after.chars ++ remaining (Source.itemChars others) ']' rest),
        place + 1 + before.chars.length⟩ (place + 1 + before.chars.length)
    refine ⟨shown, place', ?_, hshown before⟩
    rw [← hitem, Source.itemChars, remaining_cons, List.append_assoc, List.append_assoc, hcons,
      List.cons_append, announceItems_after_comma before hblank hclose]

/-- The members of an object, from after its brace. -/
theorem announceMembers_source : ∀ (gap : Gap) (members : List (Member Source)) {fuel : Nat}
    (depth place : Nat) (rest : List Char),
    (gap.chars ++ ([','].intercalate (Source.memberChars members) ++ ['}'])).length ≤ fuel →
    ∃ shown place', announceEntries fuel depth true
        ⟨gap.chars ++ ([','].intercalate (Source.memberChars members) ++ '}' :: rest), place⟩ =
      (shown, some ⟨rest, place'⟩) ∧ Source.MembersShow depth members shown
  | gap, [], fuel, depth, place, rest, _ => by
    rw [Source.memberChars, List.intercalate_nil, List.nil_append, announceEntries_gap,
      announceEntries_close]
    exact ⟨_, _, rfl, _, rfl⟩
  | gap, ⟨before, key, between, ⟨front, v, after⟩⟩ :: others, fuel, depth, place, rest, hfuel => by
    rw [intercalate_memberChars] at hfuel ⊢
    simp only [List.length_append, List.length_cons] at hfuel
    have hbound :
        v.chars.length + (remaining (Source.memberChars others) '}' []).length ≤ fuel := by
      omega
    obtain ⟨fuel, rfl, hv, hothers⟩ := exists_fuel hbound
    obtain ⟨shown, place', hentry, hshown⟩ := announceEntry_source key between front after
      (fun place rest h => announceValue_source v depth place rest hv h)
      (fun place => announceMembers_source_tail others depth place rest hothers)
      ⟨.trailingCharacters, place + gap.chars.length + before.chars.length + 1⟩
      (place + gap.chars.length + before.chars.length + 1)
    refine ⟨shown, place', ?_, hshown before⟩
    rw [← hentry, announceEntries_gap, announceEntries_gap, announceEntries_first]

/-- The members of an object that are still to come, each after its comma. -/
theorem announceMembers_source_tail : ∀ (members : List (Member Source)) {fuel : Nat}
    (depth place : Nat) (rest : List Char),
    (remaining (Source.memberChars members) '}' []).length ≤ fuel + 1 →
    ∃ shown place', announceEntries fuel depth false
        ⟨remaining (Source.memberChars members) '}' rest, place⟩ =
      (shown, some ⟨rest, place'⟩) ∧ Source.MembersShow depth members shown
  | [], fuel, depth, place, rest, _ => by
    rw [Source.memberChars, remaining_nil, announceEntries_close]
    exact ⟨_, _, rfl, _, rfl⟩
  | ⟨before, key, between, ⟨front, v, after⟩⟩ :: others, fuel, depth, place, rest, hfuel => by
    rw [Source.memberChars, length_remaining_cons] at hfuel
    simp only [List.length_append, List.length_cons] at hfuel
    have hbound :
        v.chars.length + (remaining (Source.memberChars others) '}' []).length ≤ fuel := by
      omega
    obtain ⟨fuel, rfl, hv, hothers⟩ := exists_fuel hbound
    obtain ⟨shown, place', hentry, hshown⟩ := announceEntry_source key between front after
      (fun place rest h => announceValue_source v depth place rest hv h)
      (fun place => announceMembers_source_tail others depth place rest hothers)
      ⟨.trailingComma, place + 1⟩ (place + 1 + before.chars.length + 1)
    refine ⟨shown, place', ?_, hshown before⟩
    rw [← hentry, Source.memberChars, remaining_cons]
    simp only [quotedChars, List.append_assoc, List.cons_append, List.nil_append]
    rw [announceEntries_after_comma]
end

/-- **A document is announced as what its source holds**, and nothing follows it. -/
theorem announce_document (d : Padded Source) :
    ∃ a, announce d.document = ⟨a, none⟩ ∧ d.body.Shows 0 a := by
  obtain ⟨before, v, after⟩ := d
  have hends : EndsNumber after.chars := by
    have hnothing : EndsNumber [] := by simp [EndsNumber]
    have hgap := hnothing.gap after
    rwa [List.append_nil] at hgap
  have hfuel : v.chars.length ≤ 2 * (before.chars ++ (v.chars ++ after.chars)).length + 2 := by
    simp only [List.length_append]
    omega
  obtain ⟨a, place, ha, hshows⟩ :=
    announceValue_source v 0 (0 + before.chars.length) after.chars hfuel hends
  have hcursor : Cursor.ofText (Padded.document ⟨before, v, after⟩) =
      ⟨before.chars ++ (v.chars ++ after.chars), 0⟩ := by
    simp [Cursor.ofText, Padded.document, Padded.chars]
  have hblanks := skipBlanks_gap after [] place
  rw [List.append_nil] at hblanks
  refine ⟨a, ?_, hshows⟩
  rw [announce, hcursor]
  simp only [announceValue_gap, ha, hblanks]
  rfl

end DepositForm.Json
