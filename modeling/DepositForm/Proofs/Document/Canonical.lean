import DepositForm.Proofs.Announced.Steps

/-! # Canonical trees

Not every tree can come from a text. Reading puts a key that is repeated in its first place, takes
small integers out of the word for large ones, and makes a leaf of a mapping that begins with the
key of dates. A tree is *canonical* if none of this would change it, at any depth: `Proper` says so
of one node, and `Everywhere` carries it down.

The main statement is that reading gives canonical trees only, whatever format announces them
(`canonical_of_toNode`). The invariant on the way is that the entries read so far have distinct keys
and canonical values, and begin with the key that was read first: `put` keeps it.
-/
namespace DepositForm.Node

/-! ## Everywhere in a tree -/

section Everywhere
variable (p : Node → Prop)

mutual
/-- `p` holds of a node and of all nodes below it. -/
def Everywhere : Node → Prop
  | leaf x => p (leaf x)
  | sequence items => p (sequence items) ∧ ItemsEverywhere items
  | mapping entries => p (mapping entries) ∧ EntriesEverywhere entries

def ItemsEverywhere : List Node → Prop
  | [] => True
  | n :: rest => n.Everywhere ∧ ItemsEverywhere rest

def EntriesEverywhere : List (String × Node) → Prop
  | [] => True
  | (_, n) :: rest => n.Everywhere ∧ EntriesEverywhere rest
end

mutual
/-- Whether `p` holds everywhere can be found out by going through the tree. -/
def decideEverywhere [DecidablePred p] : ∀ n : Node, Decidable (n.Everywhere p)
  | leaf x => inferInstanceAs (Decidable (p (leaf x)))
  | sequence items =>
    @instDecidableAnd _ _ (inferInstanceAs (Decidable (p (sequence items))))
      (decideItemsEverywhere items)
  | mapping entries =>
    @instDecidableAnd _ _ (inferInstanceAs (Decidable (p (mapping entries))))
      (decideEntriesEverywhere entries)

def decideItemsEverywhere [DecidablePred p] :
    ∀ items : List Node, Decidable (ItemsEverywhere p items)
  | [] => .isTrue trivial
  | n :: rest => @instDecidableAnd _ _ (decideEverywhere n) (decideItemsEverywhere rest)

def decideEntriesEverywhere [DecidablePred p] :
    ∀ entries : List (String × Node), Decidable (EntriesEverywhere p entries)
  | [] => .isTrue trivial
  | (_, n) :: rest => @instDecidableAnd _ _ (decideEverywhere n) (decideEntriesEverywhere rest)
end

instance [DecidablePred p] (n : Node) : Decidable (n.Everywhere p) := decideEverywhere p n

theorem itemsEverywhere_iff {items : List Node} :
    ItemsEverywhere p items ↔ ∀ n ∈ items, n.Everywhere p := by
  induction items with
  | nil => simp [ItemsEverywhere]
  | cons n rest ih => simp [ItemsEverywhere, ih]

theorem entriesEverywhere_iff {entries : List (String × Node)} :
    EntriesEverywhere p entries ↔ ∀ e ∈ entries, e.2.Everywhere p := by
  induction entries with
  | nil => simp [EntriesEverywhere]
  | cons e rest ih => simp [EntriesEverywhere, ih]

end Everywhere

/-! ## What canonical means -/

/-- What holds of a node that reading would not change: the word for large integers holds a large
one, and a mapping has no key twice and does not begin with the key of dates. -/
def Proper : Node → Prop
  | leaf (.unsigned u) => signedLimit ≤ u.toNat
  | mapping entries =>
    (entries.map Prod.fst).Nodup ∧ (entries.map Prod.fst).head? ≠ some dateKey
  | _ => True

instance : DecidablePred Proper
  | leaf (.unsigned u) => inferInstanceAs (Decidable (signedLimit ≤ u.toNat))
  | mapping entries =>
    inferInstanceAs (Decidable ((entries.map Prod.fst).Nodup ∧
      (entries.map Prod.fst).head? ≠ some dateKey))
  | leaf .null | leaf (.bool _) | leaf (.integer _) | leaf (.float _) | leaf (.text _)
  | sequence _ => .isTrue trivial

/-- A tree that reading would not change. -/
abbrev Canonical (n : Node) : Prop := n.Everywhere Proper

/-- What holds of every node but a float. -/
def NoFloat : Node → Prop
  | leaf (.float _) => False
  | _ => True

instance : DecidablePred NoFloat
  | leaf (.float _) => .isFalse id
  | leaf .null | leaf (.bool _) | leaf (.integer _) | leaf (.unsigned _) | leaf (.text _)
  | sequence _ | mapping _ => .isTrue trivial

/-- A tree without floats. -/
abbrev Floatless (n : Node) : Prop := n.Everywhere NoFloat

theorem canonical_sequence {items : List Node} :
    (sequence items).Canonical ↔ ∀ n ∈ items, n.Canonical := by
  simp [Everywhere, Proper, itemsEverywhere_iff]

theorem canonical_mapping {entries : List (String × Node)} :
    (mapping entries).Canonical ↔
      (entries.map Prod.fst).Nodup ∧ (entries.map Prod.fst).head? ≠ some dateKey ∧
        ∀ e ∈ entries, e.2.Canonical := by
  simp only [Everywhere, Proper, entriesEverywhere_iff, and_assoc]

theorem canonical_ofUnsigned (u : UInt64) : (leaf (.ofUnsigned u)).Canonical := by
  unfold Scalar.ofUnsigned
  split
  · exact trivial
  · exact Nat.le_of_not_lt ‹_›

/-! ## Entries on the way -/

/-- The keys after an entry has been put in: a key that was there stays where it is, and a new one
goes to the end. -/
theorem keys_put (key : String) (n : Node) (entries : List (String × Node)) :
    (put key n entries).map Prod.fst =
      if key ∈ entries.map Prod.fst then entries.map Prod.fst
      else entries.map Prod.fst ++ [key] := by
  induction entries with
  | nil => simp [put]
  | cons e rest ih =>
    rw [put]
    by_cases h : e.1 = key
    · simp [h]
    · have hne : key ≠ e.1 := fun he => h he.symm
      simp only [if_neg h, List.map_cons, ih, List.mem_cons, hne, false_or]
      split <;> simp

theorem mem_put {key : String} {n : Node} {entries : List (String × Node)} {e : String × Node}
    (h : e ∈ put key n entries) : e ∈ entries ∨ e = (key, n) := by
  induction entries with
  | nil => exact .inr (by simpa [put] using h)
  | cons first rest ih =>
    rw [put] at h
    split at h
    · rename_i hkey
      rcases List.mem_cons.mp h with rfl | h
      · exact .inr (by rw [hkey])
      · exact .inl (List.mem_cons_of_mem _ h)
    · rcases List.mem_cons.mp h with rfl | h
      · exact .inl List.mem_cons_self
      · exact (ih h).imp_left (List.mem_cons_of_mem _)

/-- Where the key is new, the entry goes to the end. -/
theorem put_of_not_mem {key : String} {n : Node} {entries : List (String × Node)}
    (h : key ∉ entries.map Prod.fst) : put key n entries = entries ++ [(key, n)] := by
  induction entries with
  | nil => rfl
  | cons e rest ih =>
    rw [List.map_cons, List.mem_cons, not_or] at h
    rw [put, if_neg (Ne.symm h.1), ih h.2, List.cons_append]

/-- What holds of the entries read so far, the first of which has the key `first`. -/
structure Gathered (first : String) (entries : List (String × Node)) : Prop where
  distinct : (entries.map Prod.fst).Nodup
  begins : (entries.map Prod.fst).head? = some first
  canonical : ∀ e ∈ entries, e.2.Canonical

theorem Gathered.singleton {key : String} {n : Node} (h : n.Canonical) :
    Gathered key [(key, n)] where
  distinct := by simp
  begins := rfl
  canonical := by simpa using h

theorem Gathered.put {first key : String} {n : Node} {entries : List (String × Node)}
    (h : Gathered first entries) (hn : n.Canonical) : Gathered first (Node.put key n entries) where
  distinct := by
    rw [keys_put]
    split
    · exact h.distinct
    · refine List.nodup_append.mpr ⟨h.distinct, by simp, ?_⟩
      rintro k hk _ hkey rfl
      rw [List.mem_singleton] at hkey
      exact ‹key ∉ _› (hkey ▸ hk)
  begins := by
    rw [keys_put]
    split
    · exact h.begins
    · rw [List.head?_append, h.begins]; rfl
  canonical := by
    intro e he
    rcases mem_put he with he | rfl
    · exact h.canonical e he
    · exact hn

theorem Gathered.mapping {first : String} {entries : List (String × Node)}
    (h : Gathered first entries) (hfirst : first ≠ dateKey) : (mapping entries).Canonical := by
  refine canonical_mapping.mpr ⟨h.distinct, ?_, h.canonical⟩
  rw [h.begins]
  exact fun he => hfirst (Option.some.inj he)

end Node

/-! ## Reading -/

namespace Announced

variable {ε : Type}

theorem canonical_of_leaf? {t : Token} {s : Scalar} (h : leaf? t = some s) :
    (Node.leaf s).Canonical := by
  cases t <;> simp only [leaf?, Option.some.injEq, reduceCtorEq] at h <;> subst h
  case unsigned u => exact Node.canonical_ofUnsigned u
  all_goals exact trivial

mutual
/-- **Reading gives canonical trees only**, whatever is announced. -/
theorem canonical_of_toNode : ∀ (a : Announced ε) {n : Node}, a.toNode = .ok n → n.Canonical
  | token t ending, n, h => by
    obtain ⟨s, hs, rfl⟩ := toNode_token_eq_ok.mp h
    exact canonical_of_leaf? hs
  | unreadable fault, n, h => by simp [toNode] at h
  | present inner, n, h => by
    rw [toNode] at h
    exact canonical_of_toNode inner h
  | wrapped inner, n, h => by simp [toNode] at h
  | sequence opening limit items, n, h => by
    obtain ⟨-, ns, hns, rfl⟩ := toNode_sequence_eq_ok.mp h
    exact Node.canonical_sequence.mpr (canonical_of_toNodes items hns)
  | mapping opening limit (.done closing), n, h => by
    obtain ⟨-, rfl⟩ := toNode_mapping_done_eq_ok.mp h
    exact Node.canonical_mapping.mpr ⟨by simp, by simp, by simp⟩
  | mapping opening limit (.next unread key afterKey value rest), n, h => by
    obtain ⟨-, k, -, ⟨-, s, -, -, rfl⟩ | ⟨hk, v, es, hv, hes, rfl⟩⟩ :=
      toNode_mapping_next_eq_ok.mp h
    · exact trivial
    · have hgathered := gathered_of_toNodes rest (.singleton (canonical_of_toNode value hv)) hes
      exact hgathered.mapping hk
  | mapping opening limit (.broken reading passing unread), n, h =>
    absurd h toNode_mapping_broken
  | broken reading passing, n, h => by simp [toNode] at h

theorem canonical_of_toNodes : ∀ (items : Items ε) {ns : List Node}, items.toNodes = .ok ns →
    ∀ n ∈ ns, n.Canonical
  | .done closing, ns, h => by
    rw [Items.toNodes] at h
    cases h
    simp
  | .next unread item rest, ns, h => by
    obtain ⟨n, rest', hn, hrest, rfl⟩ := Items.toNodes_next_eq_ok.mp h
    intro n' hn'
    rcases List.mem_cons.mp hn' with rfl | hn'
    · exact canonical_of_toNode item hn
    · exact canonical_of_toNodes rest hrest n' hn'
  | .broken reading passing unread, ns, h => by simp [Items.toNodes] at h

theorem gathered_of_toNodes {first : String} : ∀ (entries : Entries ε)
    {soFar es : List (String × Node)}, Node.Gathered first soFar →
    entries.toNodes soFar = .ok es → Node.Gathered first es
  | .done closing, soFar, es, hsoFar, h => by
    rw [Entries.toNodes] at h
    cases h
    exact hsoFar
  | .next unread key afterKey value rest, soFar, es, hsoFar, h => by
    obtain ⟨k, n, -, hn, hrest⟩ := Entries.toNodes_next_eq_ok.mp h
    exact gathered_of_toNodes rest (hsoFar.put (canonical_of_toNode value hn)) hrest
  | .broken reading passing unread, soFar, es, hsoFar, h => by simp [Entries.toNodes] at h
end

end Announced
end DepositForm
