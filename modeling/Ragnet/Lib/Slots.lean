import Mathlib.Data.List.Basic
import Mathlib.Data.List.Nodup

/-!
# Slots that are filled in any order

A receiver that collects the parts of a whole in any order keeps a slot for each part.  The slots
*fit* the parts when each is still empty or holds its part; this is so at the start, filling a slot
with its part keeps it so, however often a part comes, and once no slot is empty the slots are the
parts.

The slots that are *missing* are the empty ones.  Filling one of them makes it one fewer.  Where the
parts themselves are not empty, the missing ones are those that have not come, and so the slots are
full exactly when every part has come at least once.
-/

universe u

variable {α : Type u}

/-- Each slot is empty or holds its part. -/
structure Fits (empty : α) (parts slots : List α) : Prop where
  /-- There is a slot for each part. -/
  length_eq : slots.length = parts.length
  /-- A slot that is not empty holds its part. -/
  get_eq : ∀ (i : Nat) (x : α), slots[i]? = some x → x = empty ∨ parts[i]? = some x

namespace Fits

variable {empty x : α} {parts slots : List α} {i : Nat}

/-- Empty slots fit. -/
theorem replicate (empty : α) (parts : List α) :
    Fits empty parts (List.replicate parts.length empty) where
  length_eq := List.length_replicate
  get_eq _ _ h := Or.inl (List.eq_of_mem_replicate (List.mem_of_getElem? h))

/-- Filling a slot with its part keeps the slots fitting. -/
theorem set (h : Fits empty parts slots) (hx : parts[i]? = some x) :
    Fits empty parts (slots.set i x) where
  length_eq := by rw [List.length_set, h.length_eq]
  get_eq j y hy := by
    rw [List.getElem?_set] at hy
    by_cases hij : i = j
    · subst hij
      rw [if_pos rfl] at hy
      split at hy
      · exact Or.inr (hx.trans hy)
      · cases hy
    · rw [if_neg hij] at hy
      exact h.get_eq j y hy

/-- Once no slot is empty, the slots are the parts. -/
theorem eq_of_full (h : Fits empty parts slots) (hfull : ∀ x ∈ slots, x ≠ empty) :
    slots = parts := by
  refine List.ext_getElem? fun i ↦ ?_
  cases hi : slots[i]? with
  | none =>
      have hlen := List.getElem?_eq_none_iff.mp hi
      rw [h.length_eq] at hlen
      exact (List.getElem?_eq_none_iff.mpr hlen).symm
  | some x =>
      have hne := hfull x (List.mem_of_getElem? hi)
      exact ((h.get_eq i x hi).resolve_left hne).symm

end Fits

namespace Slots

variable {empty x : α} {parts slots : List α} {come : List Nat} {i j : Nat}

/-! ## Which parts have come -/

/-- The slots hold the parts whose indices have come, and no others. -/
structure Holding (empty : α) (parts : List α) (come : List Nat) (slots : List α) : Prop
    extends Fits empty parts slots where
  empty_iff : ∀ i < parts.length, slots[i]? = some empty ↔ i ∉ come

/-- Empty slots hold nothing. -/
theorem Holding.replicate (empty : α) (parts : List α) :
    Holding empty parts [] (List.replicate parts.length empty) where
  toFits := Fits.replicate empty parts
  empty_iff i hi := by
    rw [List.getElem?_replicate_of_lt hi]
    exact iff_of_true rfl List.not_mem_nil

/-- A part comes, for the first time or again. -/
theorem Holding.set (h : Holding empty parts come slots) (hi : parts[i]? = some x)
    (hx : x ≠ empty) : Holding empty parts (come ++ [i]) (slots.set i x) where
  toFits := h.toFits.set hi
  empty_iff j hj := by
    have hlt : i < slots.length := h.length_eq ▸ (List.getElem?_eq_some_iff.mp hi).1
    rw [List.getElem?_set, List.mem_append, List.mem_singleton, not_or]
    by_cases hij : i = j
    · subst hij
      rw [if_pos rfl, if_pos hlt, Option.some_inj]
      exact ⟨fun he ↦ absurd he hx, fun hn ↦ absurd rfl hn.2⟩
    · rw [if_neg hij, h.empty_iff j hj]
      exact ⟨fun hn ↦ ⟨hn, fun he ↦ hij he.symm⟩, And.left⟩

/-- Some slot is empty as long as some part has not come. -/
theorem Holding.empty_mem_iff (h : Holding empty parts come slots) :
    empty ∈ slots ↔ ¬ ∀ i < parts.length, i ∈ come := by
  rw [List.mem_iff_getElem?, not_forall]
  constructor
  · rintro ⟨i, hi⟩
    have hlt : i < parts.length := h.length_eq ▸ (List.getElem?_eq_some_iff.mp hi).1
    exact ⟨i, fun hall ↦ (h.empty_iff i hlt).mp hi (hall hlt)⟩
  · rintro ⟨i, hi⟩
    obtain ⟨hlt, hnot⟩ := Classical.not_imp.mp hi
    exact ⟨i, (h.empty_iff i hlt).mpr hnot⟩

/-! ## Missing slots -/

variable [DecidableEq α]

def missing (empty : α) (slots : List α) : List Nat :=
  (List.range slots.length).filter fun i ↦ slots[i]? = some empty

theorem mem_missing : i ∈ missing empty slots ↔ slots[i]? = some empty := by
  rw [missing, List.mem_filter, List.mem_range, decide_eq_true_iff]
  refine ⟨fun h ↦ h.2, fun h ↦ ⟨?_, h⟩⟩
  exact (List.getElem?_eq_some_iff.mp h).1

theorem nodup_missing (empty : α) (slots : List α) : (missing empty slots).Nodup :=
  List.nodup_range.filter _

theorem missing_eq_nil_iff : missing empty slots = [] ↔ empty ∉ slots := by
  rw [List.eq_nil_iff_forall_not_mem, List.mem_iff_getElem?, not_exists]
  exact forall_congr' fun i ↦ not_congr mem_missing

/-- A slot that is filled is missing no more. -/
theorem missing_set (hi : i ∈ missing empty slots) (hx : x ≠ empty) :
    (missing empty (slots.set i x)).Perm ((missing empty slots).erase i) := by
  have hnodup := nodup_missing empty slots
  refine (List.perm_ext_iff_of_nodup (nodup_missing _ _) (hnodup.erase i)).mpr fun j ↦ ?_
  have hlt : i < slots.length := (List.getElem?_eq_some_iff.mp (mem_missing.mp hi)).1
  rw [hnodup.mem_erase_iff, mem_missing, mem_missing, List.getElem?_set]
  by_cases hij : i = j
  · subst hij
    rw [if_pos rfl, if_pos hlt, Option.some_inj]
    exact ⟨fun h ↦ absurd h hx, fun h ↦ absurd rfl h.1⟩
  · rw [if_neg hij]
    exact ⟨fun h ↦ ⟨fun he ↦ hij he.symm, h⟩, fun h ↦ h.2⟩

end Slots
