import Mathlib.Data.List.Perm.Subperm
import Mathlib.Data.List.Sort

/-!
# Emptying a list in sorted rounds

A loop empties a list in rounds.  Each round sorts what is left, emits a first stretch of the
sorted list, and removes *as many* elements from the front of the list as it is.  How many is up to
a function of the sorted list.

What is emitted is a permutation of the list exactly when the list falls into ascending blocks: at
each place where the sorted list is cut, everything before the cut is below everything behind it.
-/

universe u

namespace Blocks

variable {α : Type u} [LinearOrder α] {size : List α → Nat} {l : List α}

abbrev sort (l : List α) : List α := l.insertionSort (· ≤ ·)

theorem sort_perm (l : List α) : (sort l).Perm l := List.perm_insertionSort _ l

theorem pairwise_sort (l : List α) : (sort l).Pairwise (· ≤ ·) := List.pairwise_insertionSort _ l

/-- A list whose elements are below those of another is sorted in front of it. -/
theorem sort_append {l₁ l₂ : List α} (h : ∀ a ∈ l₁, ∀ b ∈ l₂, a ≤ b) :
    sort (l₁ ++ l₂) = sort l₁ ++ sort l₂ := by
  refine List.Perm.eq_of_pairwise' (pairwise_sort _) ?_ ?_
  · rw [List.pairwise_append]
    refine ⟨pairwise_sort l₁, pairwise_sort l₂, fun a ha b hb ↦ ?_⟩
    exact h a ((sort_perm l₁).mem_iff.mp ha) b ((sort_perm l₂).mem_iff.mp hb)
  · exact (sort_perm _).trans ((sort_perm l₁).append (sort_perm l₂)).symm

/-- Cutting a list in front of its larger elements cuts the sorted list in the same place. -/
theorem sort_cut {n : Nat} (hn : n ≤ l.length) (h : ∀ a ∈ l.take n, ∀ b ∈ l.drop n, a ≤ b) :
    (sort l).take n = sort (l.take n) ∧ (sort l).drop n = sort (l.drop n) := by
  have hs := sort_append h
  have hlen : (sort (l.take n)).length = n := by
    rw [(sort_perm _).length_eq, List.length_take, Nat.min_eq_left hn]
  rw [List.take_append_drop] at hs
  rw [hs]
  exact ⟨List.take_left' hlen, List.drop_left' hlen⟩

/-- The smallest elements are the first ones exactly when the first ones are the smallest. -/
theorem take_sort_perm_iff {n : Nat} (hnd : l.Nodup) (hn : n ≤ l.length) :
    ((sort l).take n).Perm (l.take n) ↔ ∀ a ∈ l.take n, ∀ b ∈ l.drop n, a < b := by
  constructor
  · intro h a ha b hb
    have hdrop : ((sort l).drop n).Perm (l.drop n) := by
      refine (List.perm_append_left_iff (l.take n)).mp ?_
      refine (h.symm.append_right _).trans ?_
      rw [List.take_append_drop, List.take_append_drop]
      exact sort_perm l
    have hle : a ≤ b := by
      have hp := pairwise_sort l
      rw [← List.take_append_drop n (sort l), List.pairwise_append] at hp
      exact hp.2.2 a (h.mem_iff.mpr ha) b (hdrop.mem_iff.mpr hb)
    refine lt_of_le_of_ne hle ?_
    rw [← List.take_append_drop n l, List.nodup_append'] at hnd
    rintro rfl
    exact hnd.2.2 ha hb
  · intro h
    rw [(sort_cut hn fun a ha b hb ↦ (h a ha b hb).le).1]
    exact sort_perm _

/-! ## Rounds -/

/-- The rounds that empty `l`, and what they emit. -/
inductive Emits (size : List α → Nat) : List α → List (List α) → Prop
  /-- An empty list needs no rounds. -/
  | nil : Emits size [] []
  /-- A round emits from the sorted list and removes from the list. -/
  | round {l : List α} {out : List (List α)} :
      l ≠ [] → Emits size (l.drop (size (sort l))) out →
        Emits size l ((sort l).take (size (sort l)) :: out)

/-- Where the sorted list `xs` is cut after `k` rounds. -/
def cut (size : List α → Nat) : Nat → List α → Nat
  | 0, _ => 0
  | k + 1, xs => size xs + cut size k (xs.drop (size xs))

/-- The list falls into ascending blocks at the cuts of the sorted list. -/
def InBlocks (size : List α → Nat) (l : List α) : Prop :=
  ∀ k, ∀ a ∈ l.take (cut size k (sort l)), ∀ b ∈ l.drop (cut size k (sort l)), a < b

/-- A size function that makes progress and does not overshoot. -/
structure Proper (size : List α → Nat) : Prop where
  pos : ∀ {xs : List α}, xs ≠ [] → 0 < size xs
  le : ∀ xs : List α, size xs ≤ xs.length

/-- Only elements of the list are emitted. -/
theorem Emits.subset {out : List (List α)} (h : Emits size l out) : out.flatten ⊆ l := by
  induction h with
  | nil => exact fun a ha ↦ ha
  | @round l out hne _ ih =>
      intro a ha
      rw [List.flatten_cons, List.mem_append] at ha
      rcases ha with ha | ha
      · exact (sort_perm l).mem_iff.mp (List.mem_of_mem_take ha)
      · exact List.mem_of_mem_drop (ih ha)

/-- What the rounds emit is settled by the list. -/
theorem Emits.unique {out out' : List (List α)} (h : Emits size l out) (h' : Emits size l out') :
    out = out' := by
  induction h generalizing out' with
  | nil =>
      cases h' with
      | nil => rfl
      | round hne _ => exact absurd rfl hne
  | round hne _ ih =>
      cases h' with
      | nil => exact absurd rfl hne
      | round _ hout' => rw [ih hout']

def left (size : List α → Nat) : Nat → List α → List α
  | 0, l => l
  | k + 1, l => left size k (l.drop (size (sort l)))

theorem left_nil (k : Nat) : left size k ([] : List α) = [] := by
  induction k with
  | zero => rfl
  | succ k ih => rw [left, List.drop_nil, ih]

/-- What every round emits satisfies `p` when it does for what is left before the round. -/
theorem Emits.forall_iff {out : List (List α)} (h : Emits size l out) (p : List α → Prop) :
    (∀ taken ∈ out, p taken) ↔
      ∀ k, left size k l ≠ [] → p ((sort (left size k l)).take (size (sort (left size k l)))) := by
  induction h with
  | nil =>
      refine ⟨fun _ k hne ↦ absurd (left_nil k) hne, fun _ taken ht ↦ ?_⟩
      exact absurd ht List.not_mem_nil
  | @round l out hne _ ih =>
      rw [List.forall_mem_cons, ih]
      constructor
      · rintro ⟨hfirst, hrest⟩ k
        cases k with
        | zero => exact fun _ ↦ hfirst
        | succ k => exact hrest k
      · exact fun hall ↦ ⟨hall 0 hne, fun k ↦ hall (k + 1)⟩

/-- No round emits more than the list has. -/
theorem Emits.length_le {out : List (List α)} (h : Emits size l out) :
    ∀ taken ∈ out, taken.length ≤ l.length := by
  induction h with
  | nil => exact fun taken ht ↦ absurd ht List.not_mem_nil
  | @round l out hne _ ih =>
      intro taken ht
      rcases List.mem_cons.mp ht with rfl | ht
      · exact (List.length_take_le' _ _).trans_eq (sort_perm l).length_eq
      · refine (ih taken ht).trans ?_
        rw [List.length_drop]
        exact Nat.sub_le _ _

section Proper

variable (hsize : Proper size)

include hsize

theorem Proper.le_length (l : List α) : size (sort l) ≤ l.length :=
  (hsize.le _).trans_eq (sort_perm l).length_eq

/-- A list is in blocks if its first block is below the rest and the rest is in blocks. -/
theorem inBlocks_iff :
    InBlocks size l ↔
      (∀ a ∈ l.take (size (sort l)), ∀ b ∈ l.drop (size (sort l)), a < b) ∧
        InBlocks size (l.drop (size (sort l))) := by
  have hn := hsize.le_length l
  generalize hm : size (sort l) = n at hn ⊢
  have hcut (h : ∀ a ∈ l.take n, ∀ b ∈ l.drop n, a < b) (k : Nat) :
      cut size (k + 1) (sort l) = n + cut size k (sort (l.drop n)) := by
    rw [cut, hm, (sort_cut hn fun a ha b hb ↦ (h a ha b hb).le).2]
  constructor
  · intro h
    have h₁ : ∀ a ∈ l.take n, ∀ b ∈ l.drop n, a < b := by
      have := h 1
      rwa [cut, cut, hm] at this
    refine ⟨h₁, fun k a ha b hb ↦ ?_⟩
    have hk := h (k + 1)
    rw [hcut h₁ k] at hk
    refine hk a ?_ b ?_
    · rw [List.take_add]
      exact List.mem_append_right _ ha
    · rwa [← List.drop_drop]
  · rintro ⟨h₁, h⟩ k a ha b hb
    cases k with
    | zero =>
        rw [cut, List.take_zero] at ha
        exact absurd ha List.not_mem_nil
    | succ k =>
        rw [hcut h₁ k, List.take_add] at ha
        rw [hcut h₁ k, ← List.drop_drop] at hb
        rcases List.mem_append.mp ha with ha | ha
        · exact h₁ a ha b (List.mem_of_mem_drop hb)
        · exact h k a ha b hb

/-- **Nothing is lost or doubled iff the list is in blocks.** -/
theorem Emits.perm_iff {out : List (List α)} (h : Emits size l out) (hnd : l.Nodup) :
    out.flatten.Perm l ↔ InBlocks size l := by
  induction h with
  | nil =>
      refine ⟨fun _ k a ha ↦ ?_, fun _ ↦ List.Perm.refl _⟩
      rw [List.take_nil] at ha
      exact absurd ha List.not_mem_nil
  | @round l out hne hout ih =>
      have hn := hsize.le_length l
      have hnd' : (l.take (size (sort l)) ++ l.drop (size (sort l))).Nodup := by
        rwa [List.take_append_drop]
      rw [inBlocks_iff hsize, ← take_sort_perm_iff hnd hn,
        ← ih (List.nodup_append'.mp hnd').2.1, List.flatten_cons]
      constructor
      · intro hp
        -- later rounds emit nothing of the first stretch, so the first round has to emit it all
        have hsub : l.take (size (sort l)) ⊆ (sort l).take (size (sort l)) := by
          intro a ha
          have hm := hp.mem_iff.mpr (List.mem_of_mem_take ha)
          rcases List.mem_append.mp hm with hm | hm
          · exact hm
          · exact absurd (hout.subset hm) ((List.nodup_append'.mp hnd').2.2 ha)
        have hfirst : ((sort l).take (size (sort l))).Perm (l.take (size (sort l))) := by
          have hsubperm := List.Nodup.subperm (List.nodup_append'.mp hnd').1 hsub
          refine (hsubperm.perm_of_length_le ?_).symm
          rw [List.length_take, List.length_take, (sort_perm l).length_eq]
        refine ⟨hfirst, (List.perm_append_left_iff (l.take (size (sort l)))).mp ?_⟩
        rw [List.take_append_drop]
        exact (hfirst.symm.append_right _).trans hp
      · rintro ⟨hfirst, hrest⟩
        refine (hfirst.append hrest).trans ?_
        rw [List.take_append_drop]

end Proper

end Blocks
