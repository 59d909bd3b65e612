import Mathlib.Data.Finmap

/-!
# Finite maps with one value type

A hash map is a finite map: it has a lookup, a size, and no iteration order.  Mathlib's `Finmap`
is that type, and it is extensional, so "the map is left as it was" is an equation.  This file
fixes the non-dependent case and adds the lookup rules in `if` form.
-/

universe u v

/-- A hash map from `κ` to `ν`. -/
abbrev HashMap (κ : Type u) (ν : Type v) := Finmap fun _ : κ ↦ ν

namespace HashMap

variable {κ : Type u} {ν : Type v}

def len (m : HashMap κ ν) : Nat := m.keys.card

def retain (m : HashMap κ ν) (p : κ → ν → Prop) [∀ a x, Decidable (p a x)] : HashMap κ ν where
  entries := m.entries.filter fun e ↦ p e.1 e.2
  nodupKeys := by
    rw [← Multiset.nodup_keys]
    exact Multiset.nodup_of_le (Multiset.map_le_map (Multiset.filter_le _ m.entries))
      (Multiset.nodup_keys.mpr m.nodupKeys)

/-- The values, in no particular order. -/
def values (m : HashMap κ ν) : Multiset ν := m.entries.map Sigma.snd

variable [DecidableEq κ]

def containsKey (m : HashMap κ ν) (a : κ) : Bool := (m.lookup a).isSome

theorem containsKey_iff {m : HashMap κ ν} {a : κ} : m.containsKey a = true ↔ a ∈ m :=
  Finmap.lookup_isSome

/-- The lookup after an insertion. -/
theorem lookup_insert_eq (m : HashMap κ ν) (a b : κ) (x : ν) :
    (m.insert a x).lookup b = if b = a then some x else m.lookup b := by
  split
  · next h => rw [h, Finmap.lookup_insert]
  · next h => rw [Finmap.lookup_insert_of_ne _ h]

/-- The lookup after a removal. -/
theorem lookup_erase_eq (m : HashMap κ ν) (a b : κ) :
    (m.erase a).lookup b = if b = a then none else m.lookup b := by
  split
  · next h => rw [h, Finmap.lookup_erase]
  · next h => rw [Finmap.lookup_erase_ne h]

/-- Removing a key undoes what was inserted under it. -/
theorem erase_insert (m : HashMap κ ν) (a : κ) (x : ν) : (m.insert a x).erase a = m.erase a := by
  refine Finmap.ext_lookup fun b ↦ ?_
  rw [lookup_erase_eq, lookup_erase_eq, lookup_insert_eq]
  split
  · rfl
  · rfl

/-- The only entry of a map, removed. -/
theorem erase_insert_empty (a : κ) (x : ν) : ((∅ : HashMap κ ν).insert a x).erase a = ∅ := by
  rw [erase_insert]
  refine Finmap.ext_lookup fun b ↦ ?_
  rw [lookup_erase_eq, Finmap.lookup_empty, ite_self]

/-- The keys after an insertion. -/
theorem keys_insert (m : HashMap κ ν) (a : κ) (x : ν) :
    (m.insert a x).keys = insert a m.keys := by
  ext b
  rw [Finmap.mem_keys, Finmap.mem_insert, Finset.mem_insert, Finmap.mem_keys]

/-- A new key makes the map larger by one. -/
theorem len_insert_of_notMem {m : HashMap κ ν} {a : κ} (h : a ∉ m) (x : ν) :
    len (m.insert a x) = m.len + 1 := by
  rw [len, keys_insert, Finset.card_insert_of_notMem (fun hm ↦ h (Finmap.mem_keys.mp hm)), len]

/-- A key that is present keeps the size. -/
theorem len_insert_of_mem {m : HashMap κ ν} {a : κ} (h : a ∈ m) (x : ν) :
    len (m.insert a x) = m.len := by
  rw [len, keys_insert, Finset.insert_eq_of_mem (Finmap.mem_keys.mpr h), len]

theorem len_erase_le (m : HashMap κ ν) (a : κ) : len (m.erase a) ≤ m.len := by
  refine Finset.card_le_card fun b hb ↦ ?_
  rw [Finmap.mem_keys, Finmap.mem_erase] at hb
  exact Finmap.mem_keys.mpr hb.2

theorem len_erase_lt {m : HashMap κ ν} {a : κ} (h : a ∈ m) : len (m.erase a) < m.len := by
  refine Finset.card_lt_card (Finset.ssubset_iff_subset_ne.mpr ⟨fun b hb ↦ ?_, fun heq ↦ ?_⟩)
  · rw [Finmap.mem_keys, Finmap.mem_erase] at hb
    exact Finmap.mem_keys.mpr hb.2
  · have hmem : a ∈ (m.erase a).keys := heq ▸ Finmap.mem_keys.mpr h
    rw [Finmap.mem_keys, Finmap.mem_erase] at hmem
    exact hmem.1 rfl

/-- A key is present iff its lookup succeeds. -/
theorem mem_iff_lookup {m : HashMap κ ν} {a : κ} : a ∈ m ↔ ∃ x, m.lookup a = some x :=
  Finmap.mem_iff

/-- The lookup after some entries have been dropped. -/
theorem lookup_retain (m : HashMap κ ν) (p : κ → ν → Prop) [∀ a x, Decidable (p a x)] (a : κ) :
    (m.retain p).lookup a = (m.lookup a).filter (p a) := by
  refine Option.ext fun x ↦ ?_
  change x ∈ (m.retain p).lookup a ↔ x ∈ (m.lookup a).filter (p a)
  rw [Finmap.mem_lookup_iff, retain, Multiset.mem_filter, ← Finmap.mem_lookup_iff,
    Option.mem_filter_iff, decide_eq_true_iff]

theorem len_retain_le (m : HashMap κ ν) (p : κ → ν → Prop) [∀ a x, Decidable (p a x)] :
    len (m.retain p) ≤ m.len := by
  refine Finset.card_le_card fun b hb ↦ ?_
  rw [Finmap.mem_keys, mem_iff_lookup, lookup_retain] at hb
  obtain ⟨x, hx⟩ := hb
  rw [Finmap.mem_keys, mem_iff_lookup]
  exact ⟨x, (Option.filter_eq_some_iff.mp hx).1⟩

/-- An empty map is one without entries. -/
theorem eq_empty_of_len {m : HashMap κ ν} (h : m.len = 0) : m = ∅ := by
  refine Finmap.ext_lookup fun a ↦ ?_
  rw [Finmap.lookup_empty, Finmap.lookup_eq_none, ← Finmap.mem_keys, Finset.card_eq_zero.mp h]
  exact Finset.notMem_empty a

end HashMap
