import Mathlib.Data.List.Basic

/-!
# Positions in a filtered list

An entry of a list that passes a test stands at some position of the filtered list, its *rank*: the
number of entries before it that pass.  Changing an entry without changing whether it passes changes
the filtered list at the rank, or not at all.
-/

universe u

variable {α : Type u} (p : α → Bool) {l l' : List α} {i j : Nat} {x : α}

/-- How many entries before a position pass. -/
def List.rank (l : List α) (i : Nat) : Nat := ((l.take i).filter p).length

namespace List

theorem rank_nil (i : Nat) : rank p [] i = 0 := by rw [rank, take_nil, filter_nil, length_nil]

theorem rank_zero (l : List α) : rank p l 0 = 0 := by rw [rank, take_zero, filter_nil, length_nil]

theorem rank_cons (x : α) (l : List α) (i : Nat) :
    rank p (x :: l) (i + 1) = (if p x then 1 else 0) + rank p l i := by
  rw [rank, rank, take_succ_cons, filter_cons]
  split
  · rw [length_cons, Nat.add_comm]
  · rw [Nat.zero_add]

/-- The rank of the next entry of a list. -/
theorem rank_length (l : List α) : rank p l l.length = (l.filter p).length := by
  rw [rank, take_length]

theorem rank_append (h : i ≤ l.length) : rank p (l ++ l') i = rank p l i := by
  rw [rank, take_append_of_le_length h, rank]

variable {p}

/-- An entry that passes stands at its rank. -/
theorem getElem?_filter_rank (hi : l[i]? = some x) (hx : p x = true) :
    (l.filter p)[rank p l i]? = some x := by
  induction l generalizing i with
  | nil => cases hi
  | cons y l ih =>
      cases i with
      | zero =>
          obtain rfl := Option.some.inj hi
          rw [rank_zero, filter_cons_of_pos hx]
          rfl
      | succ i =>
          rw [getElem?_cons_succ] at hi
          rw [rank_cons]
          by_cases hy : p y = true
          · rw [filter_cons_of_pos hy, if_pos hy, Nat.add_comm, getElem?_cons_succ]
            exact ih hi
          · rw [filter_cons_of_neg hy, if_neg hy, Nat.zero_add]
            exact ih hi

/-- The ranks depend on what passes alone. -/
theorem rank_congr {q : α → Bool} (h : l.map p = l'.map q) (i : Nat) :
    rank p l i = rank q l' i := by
  induction l generalizing l' i with
  | nil =>
      obtain rfl := map_eq_nil_iff.mp h.symm
      rw [rank_nil, rank_nil]
  | cons x l ih =>
      cases l' with
      | nil => cases h
      | cons y l' =>
          obtain ⟨hx, hl⟩ := cons.inj h
          cases i with
          | zero => rw [rank_zero, rank_zero]
          | succ i => rw [rank_cons, rank_cons, hx, ih hl]

theorem rank_modify {f : α → α} (hf : ∀ x, p (f x) = p x) (j : Nat) (l : List α) (i : Nat) :
    rank p (l.modify j f) i = rank p l i := by
  refine rank_congr (ext_getElem? fun k ↦ ?_) i
  rw [getElem?_map, getElem?_map, getElem?_modify]
  cases l[k]? with
  | none => rfl
  | some x =>
      change some (p (if j = k then f x else x)) = some (p x)
      split
      · rw [hf]
      · rfl

/-- Changing an entry that passes. -/
theorem filter_modify_of_pos {f : α → α} (hf : ∀ x, p (f x) = p x) (hi : l[i]? = some x)
    (hx : p x = true) : (l.modify i f).filter p = (l.filter p).modify (rank p l i) f := by
  induction l generalizing i with
  | nil => cases hi
  | cons y l ih =>
      cases i with
      | zero =>
          obtain rfl := Option.some.inj hi
          rw [rank_zero, modify_zero_cons, filter_cons_of_pos hx, modify_zero_cons,
            filter_cons_of_pos ((hf y).trans hx)]
      | succ i =>
          rw [getElem?_cons_succ] at hi
          rw [modify_succ_cons, rank_cons]
          by_cases hy : p y = true
          · rw [filter_cons_of_pos hy, filter_cons_of_pos hy, if_pos hy, Nat.add_comm,
              modify_succ_cons, ih hi]
          · rw [filter_cons_of_neg hy, filter_cons_of_neg hy, if_neg hy, Nat.zero_add, ih hi]

/-- Changing an entry that does not pass, or none. -/
theorem filter_modify_of_neg {f : α → α} (hf : ∀ x, p (f x) = p x)
    (hi : ∀ x, l[i]? = some x → p x = false) : (l.modify i f).filter p = l.filter p := by
  induction l generalizing i with
  | nil => rw [modify_nil]
  | cons y l ih =>
      cases i with
      | zero =>
          have hy : ¬ p y = true := Bool.eq_false_iff.mp (hi y rfl)
          rw [modify_zero_cons, filter_cons_of_neg hy, filter_cons_of_neg (by rwa [hf])]
      | succ i =>
          have hl := ih fun x hx ↦ hi x (by rwa [getElem?_cons_succ])
          rw [modify_succ_cons]
          by_cases hy : p y = true
          · rw [filter_cons_of_pos hy, filter_cons_of_pos hy, hl]
          · rw [filter_cons_of_neg hy, filter_cons_of_neg hy, hl]

end List
