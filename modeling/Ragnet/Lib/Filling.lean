import Mathlib.Data.Finset.Max
import Mathlib.Order.Interval.Finset.Nat

/-!
# Filling the gaps below some elements of a set

A set of numbers is filled up, from a bound on, below some of its elements.  How many elements it
has then is settled by the highest of these: everything between the bound and this element is
there, and from there on nothing has been added.
-/

namespace Filling

variable {s filled : Finset Nat} {p : Nat → Prop} {bound n : Nat}

/-- What a set that has been filled up below `j` has at least. -/
def spread (s : Finset Nat) (bound j : Nat) : Nat :=
  (j - bound) + (s.filter fun k ↦ k < bound ∨ j ≤ k).card

theorem disjoint_spread (j : Nat) :
    Disjoint (Finset.Ico bound j) (s.filter fun k ↦ k < bound ∨ j ≤ k) := by
  rw [Finset.disjoint_left]
  intro k hk hk'
  have hlt := Finset.mem_Ico.mp hk
  have hout := (Finset.mem_filter.mp hk').2
  omega

theorem card_spread (j : Nat) :
    (Finset.Ico bound j ∪ s.filter fun k ↦ k < bound ∨ j ≤ k).card = spread s bound j := by
  rw [Finset.card_union_of_disjoint (disjoint_spread j), Nat.card_Ico, spread]

/-- **A set that is filled up below the elements with `p` stays small** exactly when it is small
and none of these is too high. -/
theorem card_le_iff (hp : ∀ j, p j → j ∈ s)
    (hfilled : ∀ u, u ∈ filled ↔ u ∈ s ∨ bound ≤ u ∧ ∃ j, u < j ∧ p j) :
    filled.card ≤ n ↔ s.card ≤ n ∧ ∀ j, p j → spread s bound j ≤ n := by
  constructor
  · intro h
    refine ⟨(Finset.card_le_card fun u hu ↦ (hfilled u).mpr (Or.inl hu)).trans h, fun j hj ↦ ?_⟩
    refine (card_spread j).symm.le.trans ((Finset.card_le_card fun u hu ↦ ?_).trans h)
    rcases Finset.mem_union.mp hu with hu | hu
    · have hlt := Finset.mem_Ico.mp hu
      exact (hfilled u).mpr (Or.inr ⟨hlt.1, j, hlt.2, hj⟩)
    · exact (hfilled u).mpr (Or.inl (Finset.mem_filter.mp hu).1)
  · rintro ⟨hs, hspread⟩
    by_cases hnone : ∃ j, p j
    · -- the highest element with `p`
      classical
      have hne : (s.filter p).Nonempty :=
        hnone.imp fun j hj ↦ Finset.mem_filter.mpr ⟨hp j hj, hj⟩
      have hmax (j : Nat) (hj : p j) : j ≤ (s.filter p).max' hne :=
        Finset.le_max' _ j (Finset.mem_filter.mpr ⟨hp j hj, hj⟩)
      have htop := (Finset.mem_filter.mp ((s.filter p).max'_mem hne)).2
      generalize (s.filter p).max' hne = top at hmax htop
      have hcard := (@card_spread s bound top).le.trans (hspread top htop)
      refine (Finset.card_le_card fun u hu ↦ ?_).trans hcard
      rw [Finset.mem_union, Finset.mem_Ico, Finset.mem_filter]
      rcases (hfilled u).mp hu with hu | ⟨hle, j, hlt, hj⟩
      · by_cases hin : bound ≤ u ∧ u < top
        · exact Or.inl hin
        · exact Or.inr ⟨hu, by omega⟩
      · exact Or.inl ⟨hle, hlt.trans_le (hmax j hj)⟩
    · refine (Finset.card_le_card fun u hu ↦ ?_).trans hs
      rcases (hfilled u).mp hu with hu | ⟨-, j, -, hj⟩
      · exact hu
      · exact absurd ⟨j, hj⟩ hnone

end Filling
