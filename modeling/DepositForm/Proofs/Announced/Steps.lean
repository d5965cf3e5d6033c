import DepositForm.Announced.Node
import DepositForm.Announced.Value

/-! # What a reader has read when it succeeds

A reader that succeeds has succeeded in each of its steps. One statement for each form of an
announcement says what these steps gave, for the reader of trees and for the one that takes a value
as it is; nothing that is proved of what has been read opens these readers themselves.
-/
namespace DepositForm

variable {ε α β : Type}

@[simp] theorem ok_bind (a : α) (f : α → Except ε β) : (Except.ok a >>= f) = f a := rfl

@[simp] theorem error_bind (e : ε) (f : α → Except ε β) :
    ((Except.error e : Except ε α) >>= f) = .error e := rfl

@[simp] theorem pure_eq_ok (a : α) : (pure a : Except ε α) = .ok a := rfl

/-- A chain of steps succeeds if each of them does. -/
theorem bind_eq_ok {x : Except ε α} {f : α → Except ε β} {b : β} :
    (x >>= f) = .ok b ↔ ∃ a, x = .ok a ∧ f a = .ok b := by
  cases x <;> simp

theorem map_eq_ok {x : Except ε α} {f : α → β} {b : β} :
    f <$> x = .ok b ↔ ∃ a, x = .ok a ∧ f a = b := by
  cases x <;> simp [Functor.map, Except.map]

theorem mapError_eq_ok {ε' : Type} {x : Except ε α} {f : ε → ε'} {a : α} :
    x.mapError f = .ok a ↔ x = .ok a := by
  cases x with
  | error e => exact ⟨(fun h => nomatch h), fun h => nomatch h⟩
  | ok b =>
    constructor
    · intro h
      cases h
      rfl
    · intro h
      cases h
      rfl

/-- An integer that is not negative is taken from the unsigned word into the signed one. -/
theorem Scalar.ofUnsigned_toNat {i : Int64} (h : 0 ≤ i.toInt) :
    Scalar.ofUnsigned (UInt64.ofNat i.toInt.toNat) = .integer i := by
  have hhigh : i.toInt < 2 ^ 63 := i.toInt_lt
  have hsmall : i.toInt.toNat < signedLimit := by unfold signedLimit; omega
  have hword : (UInt64.ofNat i.toInt.toNat).toNat = i.toInt.toNat :=
    UInt64.toNat_ofNat_of_lt' (by unfold UInt64.size; omega)
  rw [Scalar.ofUnsigned, hword, if_pos hsmall, ← Int64.ofInt_eq_ofNat, Int.toNat_of_nonneg h,
    Int64.ofInt_toInt]

namespace Announced

variable {limit : Option ε}

@[simp] theorem checked_none : checked (none : Option ε) = .ok () := rfl

theorem checked_eq_ok {limit : Option ε} {u : Unit} : checked limit = .ok u ↔ limit = none := by
  cases limit <;> simp [checked]

/-! ## Trees -/

section Trees
variable {n : Node}

theorem toNode_token_eq_ok {t : Token} {ending : Nat} :
    (token t ending : Announced ε).toNode = .ok n ↔ ∃ s, leaf? t = some s ∧ n = .leaf s := by
  rw [toNode]
  cases leaf? t with
  | none => simp
  | some s => simp [eq_comm]

theorem toNode_sequence_eq_ok {opening : Nat} {items : Items ε} :
    (sequence opening limit items).toNode = .ok n ↔
      limit = none ∧ ∃ ns, items.toNodes = .ok ns ∧ n = .sequence ns := by
  change (do checked limit; return Node.sequence (← items.toNodes)) = _ ↔ _
  rw [bind_eq_ok]
  simp only [checked_eq_ok, bind_eq_ok, pure_eq_ok, Except.ok.injEq]
  exact ⟨fun ⟨_, h, ns, hns, he⟩ => ⟨h, ns, hns, he.symm⟩,
    fun ⟨h, ns, hns, he⟩ => ⟨(), h, ns, hns, he.symm⟩⟩

theorem toNode_mapping_done_eq_ok {opening closing : Nat} :
    (mapping opening limit (.done closing)).toNode = .ok n ↔ limit = none ∧ n = .mapping [] := by
  change (do checked limit; return Node.mapping []) = _ ↔ _
  rw [bind_eq_ok]
  simp only [checked_eq_ok, pure_eq_ok, Except.ok.injEq]
  exact ⟨fun ⟨_, h, he⟩ => ⟨h, he.symm⟩, fun ⟨h, he⟩ => ⟨(), h, he.symm⟩⟩

/-- A mapping with entries is a date if the first key is the one of dates, and else a mapping of
what its entries give one after the other. -/
theorem toNode_mapping_next_eq_ok {opening afterKey : Nat} {unread : Option ε}
    {key value : Announced ε} {rest : Entries ε} :
    (mapping opening limit (.next unread key afterKey value rest)).toNode = .ok n ↔
      limit = none ∧ ∃ k, key.toText = .ok k ∧
        ((k = dateKey ∧ ∃ s, value.toText = .ok s ∧ rest.unread? = none ∧ n = .leaf (.text s)) ∨
          (k ≠ dateKey ∧ ∃ v es, value.toNode = .ok v ∧ rest.toNodes [(k, v)] = .ok es ∧
            n = .mapping es)) := by
  rw [toNode, bind_eq_ok]
  simp only [checked_eq_ok, bind_eq_ok]
  constructor
  · rintro ⟨_, hlimit, k, hk, h⟩
    refine ⟨hlimit, k, hk, ?_⟩
    split at h
    · simp only [bind_eq_ok, checked_eq_ok, pure_eq_ok, Except.ok.injEq] at h
      obtain ⟨s, hs, _, hrest, rfl⟩ := h
      exact .inl ⟨‹_›, s, hs, hrest, rfl⟩
    · simp only [bind_eq_ok, pure_eq_ok, Except.ok.injEq] at h
      obtain ⟨v, hv, es, hes, rfl⟩ := h
      exact .inr ⟨‹_›, v, es, hv, hes, rfl⟩
  · rintro ⟨hlimit, k, hk, h⟩
    refine ⟨(), hlimit, k, hk, ?_⟩
    rcases h with ⟨hkey, s, hs, hrest, rfl⟩ | ⟨hkey, v, es, hv, hes, rfl⟩
    · simp [hkey, hs, hrest]
    · simp [hkey, hv, hes]

@[simp] theorem toNode_mapping_broken {opening : Nat} {reading passing unread : ε} :
    (mapping opening limit (.broken reading passing unread)).toNode ≠ .ok n := by
  intro h
  cases limit <;> cases h

theorem Items.toNodes_next_eq_ok {unread : Option ε} {item : Announced ε} {rest : Items ε}
    {ns : List Node} :
    (Items.next unread item rest).toNodes = .ok ns ↔
      ∃ n rest', item.toNode = .ok n ∧ rest.toNodes = .ok rest' ∧ ns = n :: rest' := by
  rw [Items.toNodes]
  simp only [bind_eq_ok, pure_eq_ok, Except.ok.injEq]
  exact ⟨fun ⟨n, hn, rest', hrest, he⟩ => ⟨n, rest', hn, hrest, he.symm⟩,
    fun ⟨n, rest', hn, hrest, he⟩ => ⟨n, hn, rest', hrest, he.symm⟩⟩

theorem Entries.toNodes_next_eq_ok {unread : Option ε} {key value : Announced ε} {afterKey : Nat}
    {rest : Entries ε} {soFar es : List (String × Node)} :
    (Entries.next unread key afterKey value rest).toNodes soFar = .ok es ↔
      ∃ k n, key.toText = .ok k ∧ value.toNode = .ok n ∧
        rest.toNodes (Node.put k n soFar) = .ok es := by
  rw [Entries.toNodes]
  simp only [bind_eq_ok]
  exact ⟨fun ⟨k, hk, n, hn, h⟩ => ⟨k, n, hk, hn, h⟩, fun ⟨k, n, hk, hn, h⟩ => ⟨k, hk, n, hn, h⟩⟩

end Trees

/-! ## Values taken as they are -/

section Values
variable {v : Value}

theorem toValue_sequence_eq_ok {opening : Nat} {items : Items ε} :
    (sequence opening limit items).toValue = .ok v ↔
      limit = none ∧ ∃ vs, items.toValues = .ok vs ∧ v = .list vs := by
  rw [toValue, bind_eq_ok]
  simp only [checked_eq_ok, bind_eq_ok, pure_eq_ok, Except.ok.injEq]
  exact ⟨fun ⟨_, h, vs, hvs, he⟩ => ⟨h, vs, hvs, he.symm⟩,
    fun ⟨h, vs, hvs, he⟩ => ⟨(), h, vs, hvs, he.symm⟩⟩

theorem toValue_mapping_eq_ok {opening : Nat} {entries : Entries ε} :
    (mapping opening limit entries).toValue = .ok v ↔
      limit = none ∧ ∃ vs, entries.toValues = .ok vs ∧ v = .table vs := by
  rw [toValue, bind_eq_ok]
  simp only [checked_eq_ok, bind_eq_ok, pure_eq_ok, Except.ok.injEq]
  exact ⟨fun ⟨_, h, vs, hvs, he⟩ => ⟨h, vs, hvs, he.symm⟩,
    fun ⟨h, vs, hvs, he⟩ => ⟨(), h, vs, hvs, he.symm⟩⟩

theorem Items.toValues_next_eq_ok {unread : Option ε} {item : Announced ε} {rest : Items ε}
    {vs : List Value} :
    (Items.next unread item rest).toValues = .ok vs ↔
      ∃ v rest', item.toValue = .ok v ∧ rest.toValues = .ok rest' ∧ vs = v :: rest' := by
  rw [Items.toValues]
  simp only [bind_eq_ok, pure_eq_ok, Except.ok.injEq]
  exact ⟨fun ⟨v, hv, rest', hrest, he⟩ => ⟨v, rest', hv, hrest, he.symm⟩,
    fun ⟨v, rest', hv, hrest, he⟩ => ⟨v, hv, rest', hrest, he.symm⟩⟩

theorem Entries.toValues_next_eq_ok {unread : Option ε} {key value : Announced ε} {afterKey : Nat}
    {rest : Entries ε} {vs : List (String × Value)} :
    (Entries.next unread key afterKey value rest).toValues = .ok vs ↔
      ∃ k v rest', key.toText = .ok k ∧ value.toValue = .ok v ∧ rest.toValues = .ok rest' ∧
        vs = (k, v) :: rest' := by
  rw [Entries.toValues]
  simp only [bind_eq_ok, pure_eq_ok, Except.ok.injEq]
  exact ⟨fun ⟨k, hk, v, hv, rest', hrest, he⟩ => ⟨k, v, rest', hk, hv, hrest, he.symm⟩,
    fun ⟨k, v, rest', hk, hv, hrest, he⟩ => ⟨k, hk, v, hv, rest', hrest, he.symm⟩⟩

theorem Entries.done_of_toValues {entries : Entries ε} (h : entries.toValues = .ok []) :
    entries.unread? = none := by
  cases entries with
  | done closing => rfl
  | next unread key afterKey value rest =>
    obtain ⟨k, v, rest', -, -, -, he⟩ := toValues_next_eq_ok.mp h
    cases he
  | broken reading passing unread => cases h

end Values

end Announced
end DepositForm
