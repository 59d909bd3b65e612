import Mathlib.Data.List.SplitBy

/-!
# Runs of a list that grows at its end

`List.splitBy r` cuts a list into its maximal runs of `r`-related neighbours.  A loop that reads a
list from the front and remembers its last run needs to know what one more element does to the
runs: it extends the last run, or it starts a new one.
-/

universe u

namespace Runs

variable {α : Type u} {r : α → α → Bool} {l run : List α} {runs : List (List α)} {x : α}

/-- The first element is a run. -/
theorem splitBy_singleton : [x].splitBy r = [[x]] := rfl

/-- An element related to the one before it extends the last run. -/
theorem splitBy_concat_of_rel (h : l.splitBy r = runs ++ [run])
    (hx : ∀ y ∈ run.getLast?, r y x = true) :
    (l ++ [x]).splitBy r = runs ++ [run ++ [x]] := by
  obtain ⟨hl, hne, hchain, hcut⟩ := List.splitBy_eq_iff.mp h
  have hrun : run ≠ [] := fun he ↦ hne (by simp [he])
  rw [List.splitBy_eq_iff]
  refine ⟨by simp [hl], ?_, ?_, ?_⟩
  · intro hm
    rcases List.mem_append.mp hm with hm | hm
    · exact hne (List.mem_append_left _ hm)
    · exact List.append_ne_nil_of_right_ne_nil _ (List.cons_ne_nil _ _)
        (List.mem_singleton.mp hm).symm
  · intro m hm
    rcases List.mem_append.mp hm with hm | hm
    · exact hchain m (List.mem_append_left _ hm)
    · rw [List.mem_singleton.mp hm, List.isChain_append]
      refine ⟨hchain run (by simp), List.isChain_singleton x, fun y hy z hz ↦ ?_⟩
      obtain rfl : x = z := by simpa using hz
      exact hx y hy
  · rw [List.isChain_append] at hcut ⊢
    refine ⟨hcut.1, List.isChain_singleton _, fun m hm m' hm' ↦ ?_⟩
    obtain rfl : run ++ [x] = m' := by simpa using hm'
    obtain ⟨ha, hb, hr⟩ := hcut.2.2 m hm run (by simp)
    refine ⟨ha, List.append_ne_nil_of_left_ne_nil hb _, ?_⟩
    rw [List.head_append_of_ne_nil hb]
    exact hr

/-- An element not related to the one before it starts a new run. -/
theorem splitBy_concat_of_not_rel (h : l.splitBy r = runs ++ [run])
    (hx : ∀ y ∈ run.getLast?, r y x = false) :
    (l ++ [x]).splitBy r = runs ++ [run] ++ [[x]] := by
  obtain ⟨hl, hne, -, -⟩ := List.splitBy_eq_iff.mp h
  have hrun : run ≠ [] := fun he ↦ hne (by simp [he])
  rw [List.splitBy_append_cons [], h, splitBy_singleton]
  intro y hy
  refine hx y ?_
  rw [hl, List.flatten_append, List.flatten_singleton, List.getLast?_append_of_ne_nil _ hrun] at hy
  exact hy

end Runs
