import DepositForm.Json.Read
import DepositForm.Proofs.Announced.Steps

/-! # What is announced of a JSON text

A text has few kinds of values: words, numbers and texts, lists and objects. Nothing is announced as
optional or wrapped, and no token is wider than a word. A text may nest as it likes, but a reader
that enters a container where too many are open meets a fault. All of this stands in the
announcement (`Formed`), whatever the text is (`formed_announce`).
-/
namespace DepositForm.Json

/-! ## Forms -/

/-- The tokens that a text can have. -/
def Usual : Token → Prop
  | .null | .bool _ | .signed _ | .unsigned _ | .float _ | .text _ => True
  | _ => False

mutual
/-- With `depth` containers around the announcement, every token is a usual one, and a container
that may be entered keeps below the limit. -/
def Formed (depth : Nat) : Announced Fault → Prop
  | .token t _ => Usual t
  | .unreadable _ | .broken _ _ => True
  | .present _ | .wrapped _ => False
  | .sequence _ limit items =>
    (limit = none → depth + 1 < depthLimit) ∧ FormedItems (depth + 1) items
  | .mapping _ limit entries =>
    (limit = none → depth + 1 < depthLimit) ∧ FormedEntries (depth + 1) entries

def FormedItems (depth : Nat) : Announced.Items Fault → Prop
  | .next _ item rest => Formed depth item ∧ FormedItems depth rest
  | _ => True

def FormedEntries (depth : Nat) : Announced.Entries Fault → Prop
  | .next _ _ _ value rest => Formed depth value ∧ FormedEntries depth rest
  | _ => True
end

theorem lt_of_depthFault {depth : Nat} {c : Cursor} (h : depthFault depth c = none) :
    depth + 1 < depthLimit := by
  unfold depthFault at h
  split at h
  · assumption
  · cases h

/-! ## Values without parts -/

theorem usual_integerToken (negative : Bool) (word : Nat) : Usual (integerToken negative word) := by
  unfold integerToken
  split
  · split <;> exact trivial
  · exact trivial

/-- A number is an integer of a word or a float, if it has a value. -/
theorem usual_of_token {n : NumberText} {place : Nat} {t : Token} (h : n.token place = .ok t) :
    Usual t := by
  unfold NumberText.token at h
  dsimp only at h
  split at h
  · cases h
    exact usual_integerToken _ _
  · split at h
    · split at h <;> cases h
      exact trivial
    · split at h
      · split at h <;> cases h
        exact trivial
      · split at h <;> cases h
        exact trivial

/-- What is scanned is the token of some number. -/
theorem exists_token_of_scan {c next : Cursor} {t : Token}
    (h : scanNumber c = .closed (.ok t) next) :
    ∃ (n : NumberText) (place : Nat), n.token place = .ok t := by
  have hwhole : ∀ negative whole c, scanAfterWhole negative whole c = .closed (.ok t) next →
      ∃ (n : NumberText) (place : Nat), n.token place = .ok t := by
    intro negative whole c h
    unfold scanAfterWhole missingDigit at h
    dsimp only at h
    repeat' split at h
    all_goals first | cases h | (injection h with h _; exact ⟨_, _, h⟩)
  have hunsigned : ∀ negative c, scanUnsigned negative c = .closed (.ok t) next →
      ∃ (n : NumberText) (place : Nat), n.token place = .ok t := by
    intro negative c h
    unfold scanUnsigned missingDigit at h
    dsimp only at h
    split at h
    · cases h
    · cases h
    · exact hwhole _ _ _ h
  unfold scanNumber at h
  split at h <;> exact hunsigned _ _ h

theorem formed_announceWord (depth : Nat) {t : Token} (h : Usual t) (letters : List Char)
    (c : Cursor) : Formed depth (announceWord t letters c).1 := by
  induction letters generalizing c with
  | nil => exact h
  | cons expected more ih =>
    rw [announceWord]
    split
    · exact trivial
    · split
      · exact ih _
      · exact trivial

theorem formed_announceNumber (depth : Nat) (c : Cursor) : Formed depth (announceNumber c).1 := by
  unfold announceNumber
  split
  · rename_i h
    obtain ⟨n, place, hn⟩ := exists_token_of_scan h
    exact usual_of_token hn
  · exact trivial
  · exact trivial

theorem formed_announceText (depth : Nat) (c : Cursor) : Formed depth (announceText c).1 := by
  unfold announceText
  split <;> exact trivial

/-! ## Containers

Whatever the cursor, one step of the announcement keeps the form if the steps below it do. -/

section Step
variable {fuel : Nat}

theorem formed_item (hvalue : ∀ depth c, Formed depth (announceValue fuel depth c).1)
    (hitems : ∀ depth first c, FormedItems depth (announceItems fuel depth first c).1)
    (depth : Nat) (stopped c : Cursor) :
    FormedItems depth (announceItem (fuel + 1) depth stopped c).1 := by
  have hitem := hvalue depth c
  rw [announceItem]
  split
  · rename_i item next heq
    rw [heq] at hitem
    exact ⟨hitem, hitems depth false next⟩
  · rename_i item heq
    rw [heq] at hitem
    exact ⟨hitem, trivial⟩

theorem formed_items
    (hitem : ∀ depth stopped c, FormedItems depth (announceItem fuel depth stopped c).1)
    (depth : Nat) (first : Bool) (c : Cursor) :
    FormedItems depth (announceItems fuel depth first c).1 := by
  rw [announceItems]
  split
  · exact trivial
  · exact trivial
  · split
    · exact hitem depth _ _
    · split
      · dsimp only
        split
        · exact trivial
        · exact trivial
        · exact hitem depth _ _
      · exact trivial

theorem formed_entry (hvalue : ∀ depth c, Formed depth (announceValue fuel depth c).1)
    (hentries : ∀ depth first c, FormedEntries depth (announceEntries fuel depth first c).1)
    (depth : Nat) (unread : Fault) (c : Cursor) :
    FormedEntries depth (announceEntry (fuel + 1) depth unread c).1 := by
  have hkey := formed_announceText depth c
  rw [announceEntry]
  split
  · rename_i key heq
    rw [heq] at hkey
    exact ⟨hkey, trivial⟩
  · rename_i key next _
    dsimp only
    split
    · rename_i rest _
      have hvalue := hvalue depth ⟨rest, next.skipBlanks.place + 1⟩
      split
      · rename_i value after hvalueEq
        rw [hvalueEq] at hvalue
        exact ⟨hvalue, hentries depth false after⟩
      · rename_i value hvalueEq
        rw [hvalueEq] at hvalue
        exact ⟨hvalue, trivial⟩
    · exact ⟨trivial, trivial⟩

theorem formed_entries
    (hentry : ∀ depth unread c, FormedEntries depth (announceEntry fuel depth unread c).1)
    (depth : Nat) (first : Bool) (c : Cursor) :
    FormedEntries depth (announceEntries fuel depth first c).1 := by
  rw [announceEntries]
  split
  · exact trivial
  · exact trivial
  · split
    · split
      · exact hentry depth _ _
      · exact trivial
    · split
      · dsimp only
        split
        · exact trivial
        · exact hentry depth _ _
        · exact trivial
        · exact trivial
      · exact trivial

theorem formed_value
    (hitems : ∀ f, fuel = f + 1 → ∀ depth first c,
      FormedItems depth (announceItems f depth first c).1)
    (hentries : ∀ f, fuel = f + 1 → ∀ depth first c,
      FormedEntries depth (announceEntries f depth first c).1)
    (depth : Nat) (c : Cursor) : Formed depth (announceValue fuel depth c).1 := by
  rw [announceValue.eq_def]
  dsimp only
  split
  · exact trivial
  · exact formed_announceWord depth (t := .null) trivial _ _
  · exact formed_announceWord depth (t := .bool true) trivial _ _
  · exact formed_announceWord depth (t := .bool false) trivial _ _
  · exact formed_announceText depth _
  · exact ⟨lt_of_depthFault, hitems _ rfl (depth + 1) true _⟩
  · exact ⟨lt_of_depthFault, hentries _ rfl (depth + 1) true _⟩
  · split
    · exact formed_announceNumber depth _
    · exact trivial

end Step

/-- **Whatever is announced of a JSON text has its form**, by induction on the fuel: the values of a
step need the items and entries of the one before. -/
theorem formed_announce (fuel : Nat) :
    (∀ depth c, Formed depth (announceValue fuel depth c).1) ∧
    (∀ depth first c, FormedItems depth (announceItems fuel depth first c).1) ∧
    (∀ depth first c, FormedEntries depth (announceEntries fuel depth first c).1) := by
  induction fuel with
  | zero =>
    refine ⟨formed_value (fun _ h => nomatch h) (fun _ h => nomatch h), formed_items ?_,
      formed_entries ?_⟩
    · intro depth stopped c
      rw [announceItem]
      exact trivial
    · intro depth unread c
      rw [announceEntry]
      exact trivial
  | succ fuel ih =>
    obtain ⟨hvalue, hitems, hentries⟩ := ih
    refine ⟨formed_value ?_ ?_, formed_items (formed_item hvalue hitems),
      formed_entries (formed_entry hvalue hentries)⟩
    · rintro f hf
      cases hf
      exact hitems
    · rintro f hf
      cases hf
      exact hentries

/-! ## Whole texts -/

/-- The value of a text is announced by the first step. -/
theorem value_announce (text : String) :
    (announce text).value =
      (announceValue (2 * text.toList.length + 2) 0 (.ofText text)).1 := by
  have hrest : (Cursor.ofText text).rest = text.toList := rfl
  unfold announce
  dsimp only
  rw [hrest]
  split
  · rename_i h
    rw [h]
  · rename_i h
    rw [h]

/-- A reader that succeeds on a text succeeds on its announcement. -/
theorem read_eq_ok {α : Type} {reader : Announced Fault → Except (ReadError Fault) α}
    {text : String} {a : α} :
    read reader text = .ok a ↔
      reader (announce text).value = .ok a ∧ (announce text).trailing = none := by
  unfold read
  rw [bind_eq_ok]
  cases (announce text).trailing <;> simp

/-- The announcement of a whole text has the form of one. -/
theorem formed_document (text : String) : Formed 0 (announce text).value := by
  rw [value_announce]
  exact (formed_announce _).1 0 _

end DepositForm.Json
