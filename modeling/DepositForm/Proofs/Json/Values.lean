import DepositForm.Proofs.Json.Form
import DepositForm.Proofs.Json.Sources

/-! # What is read of a source

Whatever a source holds, its announcement can be passed over (`pass_of_shows`): neither its depth
nor a number or a text that stands for nothing matters to a reader that does not take the value. A
reader that does take it gets the value that the source stands for, if there is one and the source
is not too deep (`toValue_of_shows`).
-/
namespace DepositForm.Json

/-! ## Passing over and taking -/

theorem Gives.toText_eq {key : List Glyph} {s : String} {a : Announced Fault}
    (h : Gives ((textOf? key).map .text) a) (hs : textOf? key = some s) : a.toText = .ok s := by
  obtain ⟨place, rfl⟩ := h.given (.text s) (by rw [hs]; rfl)
  rfl

theorem Gives.toValue_eq {token : Option Token} {t : Token} {a : Announced Fault}
    (h : Gives token a) (ht : token = some t) : a.toValue = .ok (.token t) := by
  obtain ⟨place, rfl⟩ := h.given t ht
  rfl

namespace Source

mutual
/-- **Every source can be passed over**, however deep it is and whatever it stands for. -/
theorem pass_of_shows : ∀ (v : Source) {depth : Nat} {a : Announced Fault}, v.Shows depth a →
    a.pass = .ok ()
  | .null, _, _, h => h.passed
  | .bool _, _, _, h => h.passed
  | .number _, _, _, h => h.passed
  | .text _, _, _, h => h.passed
  | .list gap items, depth, a, h => by
    obtain ⟨opening, limit, shown, rfl, -, hitems⟩ := h
    rw [Announced.pass, pass_of_itemsShow items hitems]
  | .object gap members, depth, a, h => by
    obtain ⟨opening, limit, shown, rfl, -, hmembers⟩ := h
    rw [Announced.pass, pass_of_membersShow members hmembers]

theorem pass_of_itemsShow : ∀ (items : List (Padded Source)) {depth : Nat}
    {shown : Announced.Items Fault}, ItemsShow depth items shown → shown.pass = .ok ()
  | [], depth, shown, h => by
    obtain ⟨place, rfl⟩ := h
    rfl
  | ⟨before, v, after⟩ :: rest, depth, shown, h => by
    obtain ⟨unread, item, more, rfl, hv, hrest⟩ := h
    rw [Announced.Items.pass, pass_of_shows v hv, ok_bind, pass_of_itemsShow rest hrest]

theorem pass_of_membersShow : ∀ (members : List (Member Source)) {depth : Nat}
    {shown : Announced.Entries Fault}, MembersShow depth members shown → shown.pass = .ok ()
  | [], depth, shown, h => by
    obtain ⟨place, rfl⟩ := h
    rfl
  | ⟨before, key, between, ⟨front, v, after⟩⟩ :: rest, depth, shown, h => by
    obtain ⟨unread, name, afterKey, value, more, rfl, hname, hv, hrest⟩ := h
    rw [Announced.Entries.pass, hname.passed, ok_bind, pass_of_shows v hv, ok_bind,
      pass_of_membersShow rest hrest]
end

mutual
/-- **A source that stands for something is taken as that**, if it is not too deep. -/
theorem toValue_of_shows : ∀ (v : Source) {depth : Nat} {a : Announced Fault} {x : Value},
    v.Shows depth a → v.value? = some x → v.depth + depth < depthLimit → a.toValue = .ok x
  | .null, depth, a, x, h, hx, _ => by
    cases hx
    exact h.toValue_eq rfl
  | .bool b, depth, a, x, h, hx, _ => by
    cases hx
    exact h.toValue_eq rfl
  | .number n, depth, a, x, h, hx, _ => by
    obtain ⟨t, ht, rfl⟩ := Option.map_eq_some_iff.mp hx
    exact h.toValue_eq ht
  | .text glyphs, depth, a, x, h, hx, _ => by
    obtain ⟨s, hs, rfl⟩ := Option.map_eq_some_iff.mp hx
    exact h.toValue_eq (by rw [hs]; rfl)
  | .list gap items, depth, a, x, h, hx, hdepth => by
    obtain ⟨opening, limit, shown, rfl, hlimit, hitems⟩ := h
    obtain ⟨xs, hxs, rfl⟩ := Option.map_eq_some_iff.mp hx
    rw [Source.depth] at hdepth
    have htaken := toValues_of_itemsShow items hitems hxs (by omega)
    exact Announced.toValue_sequence_eq_ok.mpr ⟨hlimit (by omega), xs, htaken, rfl⟩
  | .object gap members, depth, a, x, h, hx, hdepth => by
    obtain ⟨opening, limit, shown, rfl, hlimit, hmembers⟩ := h
    obtain ⟨xs, hxs, rfl⟩ := Option.map_eq_some_iff.mp hx
    rw [Source.depth] at hdepth
    have htaken := toValues_of_membersShow members hmembers hxs (by omega)
    exact Announced.toValue_mapping_eq_ok.mpr ⟨hlimit (by omega), xs, htaken, rfl⟩

theorem toValues_of_itemsShow : ∀ (items : List (Padded Source)) {depth : Nat}
    {shown : Announced.Items Fault} {xs : List Value}, ItemsShow depth items shown →
    itemValues? items = some xs → itemDepth items + depth < depthLimit → shown.toValues = .ok xs
  | [], depth, shown, xs, h, hxs, _ => by
    obtain ⟨place, rfl⟩ := h
    cases hxs
    rfl
  | ⟨before, v, after⟩ :: rest, depth, shown, xs, h, hxs, hdepth => by
    obtain ⟨unread, item, more, rfl, hv, hrest⟩ := h
    rw [itemValues?] at hxs
    obtain ⟨x, hx, hxs⟩ := Option.bind_eq_some_iff.mp hxs
    obtain ⟨others, hothers, hxs⟩ := Option.bind_eq_some_iff.mp hxs
    cases hxs
    rw [itemDepth] at hdepth
    have hitem := toValue_of_shows v hv hx (by omega)
    have hmore := toValues_of_itemsShow rest hrest hothers (by omega)
    exact Announced.Items.toValues_next_eq_ok.mpr ⟨x, others, hitem, hmore, rfl⟩

theorem toValues_of_membersShow : ∀ (members : List (Member Source)) {depth : Nat}
    {shown : Announced.Entries Fault} {xs : List (String × Value)},
    MembersShow depth members shown → memberValues? members = some xs →
    memberDepth members + depth < depthLimit → shown.toValues = .ok xs
  | [], depth, shown, xs, h, hxs, _ => by
    obtain ⟨place, rfl⟩ := h
    cases hxs
    rfl
  | ⟨before, key, between, ⟨front, v, after⟩⟩ :: rest, depth, shown, xs, h, hxs, hdepth => by
    obtain ⟨unread, name, afterKey, value, more, rfl, hname, hv, hrest⟩ := h
    rw [memberValues?] at hxs
    obtain ⟨k, hk, hxs⟩ := Option.bind_eq_some_iff.mp hxs
    obtain ⟨x, hx, hxs⟩ := Option.bind_eq_some_iff.mp hxs
    obtain ⟨others, hothers, hxs⟩ := Option.bind_eq_some_iff.mp hxs
    cases hxs
    rw [memberDepth] at hdepth
    have hitem := toValue_of_shows v hv hx (by omega)
    have hmore := toValues_of_membersShow rest hrest hothers (by omega)
    exact Announced.Entries.toValues_next_eq_ok.mpr
      ⟨k, x, others, hname.toText_eq hk, hitem, hmore, rfl⟩
end

end Source

theorem Source.toText_of_shows {v : Source} {s : String} {depth : Nat} {a : Announced Fault}
    (h : v.Shows depth a) (hs : v.text? = some s) : a.toText = .ok s := by
  cases v with
  | text glyphs => exact Gives.toText_eq h hs
  | null | bool b | number n | list gap items | object gap members => cases hs

/-- A reader that succeeds on what shows the source of a document succeeds on the document. -/
theorem read_document {α : Type} {reader : Announced Fault → Except (ReadError Fault) α}
    {d : Padded Source} {x : α} (h : ∀ a, d.body.Shows 0 a → reader a = .ok x) :
    read reader d.document = .ok x := by
  obtain ⟨a, ha, hshows⟩ := announce_document d
  rw [read_eq_ok, ha]
  exact ⟨h a hshows, rfl⟩

end DepositForm.Json
