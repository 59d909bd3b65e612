import Mathlib.Data.List.Basic

/-!
# What holds at every element of a list and the elements in front of it

A loop that carries the elements it has seen checks each element against those in front of it.
Such a condition is a statement about all ways to split a list at an element; one more element at
the front is one more such split.
-/

universe u

namespace Splits

variable {α : Type u} {p : List α → α → Prop} {a : α} {l : List α}

/-- Every element of the list goes with the elements in front of it. -/
def Everywhere (p : List α → α → Prop) (l : List α) : Prop :=
  ∀ pre x post, l = pre ++ x :: post → p pre x

/-- There is nothing to split. -/
@[simp] theorem everywhere_nil : Everywhere p [] := fun _ _ _ h ↦
  absurd h.symm (List.append_ne_nil_of_right_ne_nil _ (List.cons_ne_nil _ _))

/-- The splits of a list are the one at its first element and those of the others. -/
@[simp] theorem everywhere_cons :
    Everywhere p (a :: l) ↔ p [] a ∧ Everywhere (fun pre x ↦ p (a :: pre) x) l := by
  constructor
  · intro h
    exact ⟨h [] a l rfl, fun pre x post hsplit ↦ h (a :: pre) x post (congrArg _ hsplit)⟩
  · rintro ⟨hfirst, hrest⟩ pre x post hsplit
    cases pre with
    | nil =>
        obtain ⟨rfl, -⟩ := List.cons.inj hsplit
        exact hfirst
    | cons b pre =>
        obtain ⟨rfl, htail⟩ := List.cons.inj hsplit
        exact hrest pre x post htail

end Splits
