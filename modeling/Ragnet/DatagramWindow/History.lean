import Ragnet.DatagramWindow
import Ragnet.Lib.Register

/-!
# What a datagram window accepts and reports over a whole run

A run is any sequence of `add`, `shift` and `missing` calls on a fresh window, with any indices,
any clock readings and any ages.  The history keeps the indices that `add` accepted and those that
`missing` reported.  Together the two lists register the set of numbers the window has seen, which
is the one invariant behind every statement here.
-/

namespace Ragnet.DatagramWindow

/-- A call on a datagram window. -/
inductive Op where
  | add (index : Uint24) (now : Instant)
  | shift
  | missing (since : Duration) (now : Instant) (marked : Nat → Instant)

/-- A window with what it has accepted and reported so far. -/
structure History where
  window : DatagramWindow
  /-- The indices for which `add` returned `true`. -/
  accepted : List Uint24
  /-- The indices that `missing` returned. -/
  reported : List Uint24

namespace History

/-- One call, with its effect on the history. -/
def step (h : History) : Op → History
  | .add index now =>
      let r := h.window.add index now
      { h with window := r.1, accepted := if r.2 then h.accepted ++ [index] else h.accepted }
  | .shift => { h with window := h.window.shift.1 }
  | .missing since now marked =>
      let r := h.window.missing since now marked
      { h with window := r.1, reported := h.reported ++ r.2 }

def run (ops : List Op) : History := ops.foldl step ⟨DatagramWindow.new, [], []⟩

@[simp] theorem run_append (ops : List Op) (op : Op) : run (ops ++ [op]) = (run ops).step op := by
  simp [run]

/-- The accepted and the reported indices register the numbers seen. -/
def Partitioned (h : History) : Prop :=
  Registers (h.accepted ++ h.reported) (fun u ↦ h.window.Seen u.value)

theorem step_partitioned {h : History} (hp : h.Partitioned) (op : Op) :
    (h.step op).Partitioned := by
  cases op with
  | add index now =>
      by_cases hs : h.window.Seen index.value
      · simp only [step, add_of_seen hs]
        exact hp
      · have hacc : (h.window.add index now).2 = true := add_accepts_iff.mpr hs
        rw [Partitioned, step]
        dsimp only
        rw [if_pos hacc]
        have hnew : Registers ((h.accepted ++ h.reported) ++ [index])
            (fun u ↦ (h.window.add index now).1.Seen u.value) := by
          refine hp.append (List.nodup_singleton index) ?_ ?_
          · intro u hu
            rw [List.mem_singleton.mp hu]
            exact hs
          · intro u
            rw [seen_add, List.mem_singleton, Uint24.value_inj]
        refine hnew.perm ?_
        rw [List.append_assoc, List.append_assoc]
        exact List.perm_append_comm.append_left h.accepted
  | shift => exact hp.congr (fun _ ↦ seen_shift)
  | missing since now marked =>
      rw [Partitioned, step]
      dsimp only
      rw [← List.append_assoc]
      refine hp.append missing_nodup (fun u hu ↦ not_seen_of_missing hu) (fun u ↦ ?_)
      rw [seen_missing, List.mem_map]
      refine or_congr Iff.rfl ⟨?_, fun hu ↦ ⟨u, hu, rfl⟩⟩
      rintro ⟨v, hv, hvu⟩
      exact Uint24.value_inj.mp hvu ▸ hv

theorem run_partitioned (ops : List Op) : (run ops).Partitioned := by
  induction ops using List.reverseRecOn with
  | nil => exact Registers.nil.congr (fun u ↦ iff_false_intro (not_seen_new u.value))
  | append_singleton ops op ih =>
      rw [run_append]
      exact step_partitioned ih op

theorem lowest_le_step (h : History) (op : Op) :
    h.window.lowest.value ≤ (h.step op).window.lowest.value := by
  cases op with
  | add index now => exact (congrArg Uint24.value (add_lowest h.window index now)).ge
  | shift => exact lowest_le_shift h.window
  | missing since now marked => exact lowest_le_missing

theorem lowest_le_run (ops ops' : List Op) :
    (run ops).window.lowest.value ≤ (run (ops ++ ops')).window.lowest.value := by
  induction ops' using List.reverseRecOn with
  | nil => rw [List.append_nil]
  | append_singleton ops' op ih =>
      rw [← List.append_assoc, run_append]
      exact ih.trans (lowest_le_step _ op)

/-- **The window's account of its indices.**  Over any run, `lowest` never decreases; `add`
accepts an index at most once; `missing` reports an index at most once; no index is both accepted
and reported; and every index below `lowest` was accepted by exactly one `add` or reported by
exactly one `missing`. -/
theorem run_accounts (ops : List Op) :
    (∀ ops', (run ops).window.lowest.value ≤ (run (ops ++ ops')).window.lowest.value) ∧
      (run ops).accepted.Nodup ∧ (run ops).reported.Nodup ∧
      (run ops).accepted.Disjoint (run ops).reported ∧
      ∀ u : Uint24, u.value < (run ops).window.lowest.value →
        (run ops).accepted.count u + (run ops).reported.count u = 1 := by
  have hp := run_partitioned ops
  obtain ⟨ha, hr, hd⟩ := List.nodup_append'.mp hp.nodup
  refine ⟨lowest_le_run ops, ha, hr, hd, fun u hu ↦ ?_⟩
  rw [← List.count_append]
  exact List.count_eq_one_of_mem hp.nodup ((hp.mem_iff u).mpr (Or.inl hu))

end History

end Ragnet.DatagramWindow
