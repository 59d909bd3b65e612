import Mathlib.Data.List.Nodup
import Mathlib.Data.List.Perm.Basic

/-!
# Logs that register a set once

A component that hands something out at most once keeps, somewhere in its state, the set of what
it has handed out.  A log *registers* that set when it lists each member exactly once.  The rule
for extending the log is that new entries are distinct and come from outside the set.
-/

universe u

/-- The log lists each member of `S` exactly once and nothing else. -/
structure Registers {ι : Type u} (log : List ι) (S : ι → Prop) : Prop where
  /-- No entry is listed twice. -/
  nodup : log.Nodup
  /-- The entries are the members. -/
  mem_iff : ∀ i, i ∈ log ↔ S i

namespace Registers

variable {ι : Type u} {log new : List ι} {S S' : ι → Prop}

theorem nil : Registers [] (fun _ : ι ↦ False) where
  nodup := List.nodup_nil
  mem_iff := fun _ ↦ List.mem_nil_iff _

/-- The set may be replaced by one with the same members. -/
theorem congr (h : Registers log S) (hS : ∀ i, S' i ↔ S i) : Registers log S' where
  nodup := h.nodup
  mem_iff := fun i ↦ (h.mem_iff i).trans (hS i).symm

/-- The order of the log does not matter. -/
theorem perm (h : Registers log S) {log' : List ι} (hp : log'.Perm log) : Registers log' S where
  nodup := hp.nodup_iff.mpr h.nodup
  mem_iff := fun i ↦ hp.mem_iff.trans (h.mem_iff i)

/-- Distinct entries from outside the set extend the log. -/
theorem append (h : Registers log S) (hnd : new.Nodup) (hfresh : ∀ i ∈ new, ¬ S i)
    (hS : ∀ i, S' i ↔ S i ∨ i ∈ new) : Registers (log ++ new) S' where
  nodup := by
    rw [List.nodup_append']
    exact ⟨h.nodup, hnd, fun i hi hn ↦ hfresh i hn ((h.mem_iff i).mp hi)⟩
  mem_iff := fun i ↦ by rw [List.mem_append, h.mem_iff, hS]

end Registers
