import Ragnet.Lib.Finmap

/-!
# Draining the consecutive entries of an indexed buffer

A receiver that accepts items out of order keeps them in a map from index to item, together with
a frontier below which everything has left the buffer.  `drain` is the loop that moves the
frontier: it removes entries from the frontier upwards until the first gap, or until a given
number of positions has been looked at.

Two facts make such a buffer correct.  An index is *taken* when it lies below the frontier or is
buffered; draining changes neither more nor less than where taken indices are kept
(`taken_drain`).  And if every buffered item is the one a source prescribes for its index, then
what drains is the next stretch of the source (`Ordered.drain`).
-/

universe u

namespace HashMap

variable {ν : Type u}

/-- Remove the entries at `i`, `i + 1`, … up to the first gap, looking at no more than the given
number of positions.  The removed items are returned in order. -/
def drain : Nat → HashMap Nat ν → Nat → List ν × HashMap Nat ν
  | 0, m, _ => ([], m)
  | k + 1, m, i =>
      match m.lookup i with
      | some x =>
          let rest := drain k (m.erase i) (i + 1)
          (x :: rest.1, rest.2)
      | none => ([], m)

theorem drain_succ_some {m : HashMap Nat ν} {i : Nat} {x : ν} (k : Nat)
    (h : m.lookup i = some x) :
    drain (k + 1) m i =
      (x :: (drain k (m.erase i) (i + 1)).1, (drain k (m.erase i) (i + 1)).2) := by
  rw [drain, h]

theorem drain_succ_none {m : HashMap Nat ν} {i : Nat} (k : Nat) (h : m.lookup i = none) :
    drain (k + 1) m i = ([], m) := by
  rw [drain, h]

/-- A buffer whose only entry is at the frontier drains to nothing. -/
theorem drain_insert_empty (i : Nat) (x : ν) :
    drain 1 ((∅ : HashMap Nat ν).insert i x) i = ([x], ∅) := by
  rw [drain_succ_some 0 (Finmap.lookup_insert _), erase_insert_empty]
  rfl

/-- A drain stops at its bound. -/
theorem length_drain_le (k : Nat) (m : HashMap Nat ν) (i : Nat) :
    (drain k m i).1.length ≤ k := by
  induction k generalizing m i with
  | zero => exact Nat.le_refl 0
  | succ k ih =>
      cases h : m.lookup i with
      | none => simp [drain_succ_none k h]
      | some x => simpa [drain_succ_some k h] using ih (m.erase i) (i + 1)

/-- What drains is what was buffered, in index order. -/
theorem drain_getElem? {k : Nat} {m : HashMap Nat ν} {i j : Nat}
    (h : j < (drain k m i).1.length) : (drain k m i).1[j]? = m.lookup (i + j) := by
  induction k generalizing m i j with
  | zero => exact absurd h (Nat.not_lt_zero j)
  | succ k ih =>
      cases hl : m.lookup i with
      | none => simp [drain_succ_none k hl] at h
      | some x =>
          rw [drain_succ_some k hl] at h ⊢
          cases j with
          | zero => simpa using hl.symm
          | succ j =>
              have hne : i + 1 + j ≠ i := by omega
              rw [List.getElem?_cons_succ, ih (by simpa using h), lookup_erase_eq, if_neg hne,
                Nat.add_right_comm, Nat.add_assoc]

/-- The drained stretch is gone and everything else is kept. -/
theorem lookup_drain (k : Nat) (m : HashMap Nat ν) (i j : Nat) :
    (drain k m i).2.lookup j =
      if i ≤ j ∧ j < i + (drain k m i).1.length then none else m.lookup j := by
  induction k generalizing m i with
  | zero => simp [drain]
  | succ k ih =>
      cases hl : m.lookup i with
      | none => simp [drain_succ_none k hl]
      | some x =>
          rw [drain_succ_some k hl]
          dsimp only
          rw [ih, lookup_erase_eq, List.length_cons]
          by_cases hj : j = i
          · subst hj
            simp
          · rw [if_neg hj]
            congr 1
            rw [eq_iff_iff]
            omega

/-- A drain that stops short of its bound stops at a gap. -/
theorem drain_gap {k : Nat} {m : HashMap Nat ν} {i : Nat} (h : (drain k m i).1.length < k) :
    m.lookup (i + (drain k m i).1.length) = none := by
  induction k generalizing m i with
  | zero => exact absurd h (Nat.not_lt_zero _)
  | succ k ih =>
      cases hl : m.lookup i with
      | none =>
          rw [drain_succ_none k hl]
          exact hl
      | some x =>
          rw [drain_succ_some k hl] at h ⊢
          have hg := ih (m := m.erase i) (i := i + 1) (by simpa using h)
          rw [lookup_erase_eq, if_neg (by omega)] at hg
          rw [List.length_cons]
          convert hg using 2
          omega

/-! ## Taken indices -/

/-- An index is taken when it lies below the frontier or is buffered. -/
def Taken (n : Nat) (m : HashMap Nat ν) (i : Nat) : Prop := i < n ∨ i ∈ m

/-- Buffering an item takes its index and no other. -/
theorem taken_insert {n : Nat} {m : HashMap Nat ν} {i j : Nat} {x : ν} :
    Taken n (m.insert j x) i ↔ Taken n m i ∨ i = j := by
  rw [Taken, Taken, Finmap.mem_insert]
  tauto

/-- Draining only moves indices from the buffer to below the frontier. -/
theorem taken_drain (k n : Nat) (m : HashMap Nat ν) (i : Nat) :
    Taken (n + (drain k m n).1.length) (drain k m n).2 i ↔ Taken n m i := by
  have hl := lookup_drain k m n i
  rw [Taken, Taken, ← Finmap.lookup_isSome, ← Finmap.lookup_isSome, hl]
  constructor
  · rintro (h | h)
    · by_cases hn : i < n
      · exact Or.inl hn
      · right
        have hj : i - n < (drain k m n).1.length := by omega
        have he := drain_getElem? hj
        rw [Nat.add_sub_cancel' (Nat.le_of_not_lt hn), List.getElem?_eq_getElem hj] at he
        rw [← he]
        rfl
    · split at h
      · simp at h
      · exact Or.inr h
  · rintro (h | h)
    · exact Or.inl (Nat.lt_add_right _ h)
    · by_cases hi : n ≤ i ∧ i < n + (drain k m n).1.length
      · exact Or.inl hi.2
      · rw [if_neg hi]
        exact Or.inr h

/-! ## Bounds -/

/-- Every buffered index lies between the frontier `n` and the bound `h`. -/
structure Within (n h : Nat) (m : HashMap Nat ν) : Prop where
  frontier_le : n ≤ h
  mem : ∀ i, i ∈ m → n ≤ i ∧ i < h

section Within

variable {n h : Nat} {m : HashMap Nat ν}

theorem Within.empty (n : Nat) : Within n n (∅ : HashMap Nat ν) :=
  ⟨le_rfl, fun _ hi ↦ absurd hi Finmap.notMem_empty⟩

/-- Buffering an item at or above the frontier moves the bound behind it. -/
theorem Within.insert (hw : Within n h m) {i : Nat} (hi : n ≤ i) (x : ν) :
    Within n (if i + 1 > h then i + 1 else h) (m.insert i x) := by
  have hn := hw.frontier_le
  refine ⟨?_, fun j hj ↦ ?_⟩
  · split <;> omega
  · rcases Finmap.mem_insert.mp hj with rfl | hj
    · split <;> omega
    · have hj' := hw.mem j hj
      split <;> omega

/-- A map with the same indices, and perhaps more within the bounds. -/
theorem Within.of_mem (hw : Within n h m) {m' : HashMap Nat ν}
    (hm : ∀ i, i ∈ m' → i ∈ m ∨ n ≤ i ∧ i < h) : Within n h m' :=
  ⟨hw.frontier_le, fun i hi ↦ (hm i hi).elim (hw.mem i) fun hi ↦ hi⟩

theorem mem_drain_iff {k i : Nat} :
    i ∈ (HashMap.drain k m n).2 ↔
      i ∈ m ∧ ¬ (n ≤ i ∧ i < n + (HashMap.drain k m n).1.length) := by
  rw [← Finmap.lookup_isSome, ← Finmap.lookup_isSome, lookup_drain]
  split
  · next hi => simp [hi]
  · next hi => simp [hi]

/-- A drain leaves no more entries. -/
theorem len_drain_le (k n : Nat) (m : HashMap Nat ν) : (HashMap.drain k m n).2.len ≤ m.len :=
  Finset.card_le_card fun _ hj ↦ Finmap.mem_keys.mpr (mem_drain_iff.mp (Finmap.mem_keys.mp hj)).1

/-- Draining up to the bound keeps the frontier and what is left within the bounds. -/
theorem Within.drain (hw : Within n h m) :
    Within (n + (HashMap.drain (h - n) m n).1.length) h (HashMap.drain (h - n) m n).2 := by
  have hn := hw.frontier_le
  have hlen := length_drain_le (h - n) m n
  refine ⟨by omega, fun i hi ↦ ?_⟩
  obtain ⟨hm, hout⟩ := mem_drain_iff.mp hi
  obtain ⟨hlo, hhi⟩ := hw.mem i hm
  omega

/-- After draining up to the bound nothing is buffered at the frontier. -/
theorem Within.notMem_drain (hw : Within n h m) :
    n + (HashMap.drain (h - n) m n).1.length ∉ (HashMap.drain (h - n) m n).2 := by
  intro hmem
  have hm := (mem_drain_iff.mp hmem).1
  have hhi := (hw.mem _ hm).2
  have hgap := @drain_gap _ (h - n) m n (by omega)
  exact Finmap.lookup_eq_none.mp hgap hm

/-- When nothing due is held back, the bound is within `k` of the frontier exactly when nothing is
missing further than that below it. -/
theorem sub_le_iff_of_notMem (hn : n ∉ m) {k : Nat} :
    h - n ≤ k ↔ ∀ u, u < h → ¬ Taken n m u → h ≤ u + k := by
  constructor
  · intro hle u _ hu
    have hnu : n ≤ u := Nat.le_of_not_lt fun hlt ↦ hu (Or.inl hlt)
    omega
  · intro hall
    by_cases hlt : n < h
    · have hle := hall n hlt fun ht ↦ ht.elim (Nat.lt_irrefl n) hn
      omega
    · omega

/-- Buffering an item keeps the extent within `k` exactly when nothing is missing `k` or more below
it. -/
theorem Within.insert_sub_le_iff (hw : Within n h m) (hn : n ∉ m) {i k : Nat} (hk : 0 < k)
    (hle : h - n ≤ k) (hi : n ≤ i) :
    (if i + 1 > h then i + 1 else h) - n ≤ k ↔ ∀ u, u < i → ¬ Taken n m u → i < u + k := by
  have hnh := hw.frontier_le
  constructor
  · intro hsize u _ hu
    have hnu : n ≤ u := Nat.le_of_not_lt fun hlt ↦ hu (Or.inl hlt)
    split at hsize <;> omega
  · intro hall
    rcases Nat.eq_or_lt_of_le hi with rfl | hlt
    · split <;> omega
    · have hfar := hall n hlt fun ht ↦ ht.elim (Nat.lt_irrefl n) hn
      split <;> omega

end Within

/-! ## In-order delivery -/

/-- The buffer `m` with frontier `n` delivers the source `src` in order: `log` is what `src`
prescribes below the frontier, and every buffered item is the one `src` prescribes. -/
structure Ordered (src : Nat → Option ν) (log : List ν) (n : Nat) (m : HashMap Nat ν) : Prop where
  /-- One item has been delivered for each index below the frontier. -/
  length_eq : log.length = n
  /-- The delivered items are those of the source. -/
  delivered : ∀ j, j < n → log[j]? = src j
  /-- So are the buffered ones. -/
  buffered : ∀ j x, m.lookup j = some x → src j = some x

/-- The empty buffer has delivered nothing. -/
theorem Ordered.empty (src : Nat → Option ν) : Ordered src [] 0 ∅ where
  length_eq := rfl
  delivered := fun _ h ↦ absurd h (Nat.not_lt_zero _)
  buffered := fun _ _ h ↦ by simp at h

/-- Buffering the item the source prescribes. -/
theorem Ordered.insert {src : Nat → Option ν} {log : List ν} {n i : Nat} {m : HashMap Nat ν}
    {x : ν} (h : Ordered src log n m) (hx : src i = some x) :
    Ordered src log n (m.insert i x) where
  length_eq := h.length_eq
  delivered := h.delivered
  buffered := by
    intro j y hy
    rw [lookup_insert_eq] at hy
    split at hy
    · next hj =>
        subst hj
        rw [hx, ← hy]
    · exact h.buffered j y hy

/-- Draining delivers the next stretch of the source. -/
theorem Ordered.drain {src : Nat → Option ν} {log : List ν} {n : Nat} {m : HashMap Nat ν}
    (h : Ordered src log n m) (k : Nat) :
    Ordered src (log ++ (HashMap.drain k m n).1) (n + (HashMap.drain k m n).1.length)
      (HashMap.drain k m n).2 where
  length_eq := by rw [List.length_append, h.length_eq]
  delivered := by
    intro j hj
    by_cases hn : j < n
    · rw [List.getElem?_append_left (by rw [h.length_eq]; exact hn), h.delivered j hn]
    · have hj' : j - n < (HashMap.drain k m n).1.length := by omega
      have he := drain_getElem? hj'
      rw [Nat.add_sub_cancel' (Nat.le_of_not_lt hn), List.getElem?_eq_getElem hj'] at he
      rw [List.getElem?_append_right (by rw [h.length_eq]; exact Nat.le_of_not_lt hn),
        h.length_eq, List.getElem?_eq_getElem hj', h.buffered j _ he.symm]
  buffered := by
    intro j x hx
    rw [lookup_drain] at hx
    split at hx
    · simp at hx
    · exact h.buffered j x hx

/-- A source that only grows keeps the buffer ordered. -/
theorem Ordered.mono {src src' : Nat → Option ν} {log : List ν} {n : Nat} {m : HashMap Nat ν}
    (h : Ordered src log n m) (hs : ∀ j x, src j = some x → src' j = some x) :
    Ordered src' log n m where
  length_eq := h.length_eq
  delivered := by
    intro j hj
    have hd := h.delivered j hj
    rw [List.getElem?_eq_getElem (by rw [h.length_eq]; exact hj)] at hd ⊢
    exact (hs j _ hd.symm).symm
  buffered := fun j x hx ↦ hs j x (h.buffered j x hx)

/-- An ordered buffer fed from a list has delivered a prefix of it. -/
theorem Ordered.isPrefix {l log : List ν} {n : Nat} {m : HashMap Nat ν}
    (h : Ordered (fun j ↦ l[j]?) log n m) : log <+: l := by
  rw [List.prefix_iff_getElem?]
  intro j hj
  have hd := h.delivered j (h.length_eq ▸ hj)
  rw [List.getElem?_eq_getElem hj] at hd
  exact hd.symm

end HashMap
