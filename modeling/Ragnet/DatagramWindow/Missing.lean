import Ragnet.Reach
import Mathlib.Order.Bounds.Defs

/-!
# What a scan for missing indices does

`missing` walks down from the highest index with a flag that stays set once it has passed an index
that arrived too long ago.  Everything below such an index is buffered or reported, and hence
contiguous with the frontier: the shift behind the scan removes all that the scan has marked.
-/

namespace Ragnet

open HashMap

namespace DatagramWindow

variable {w : DatagramWindow} {since : Duration} {now : Instant} {marked : Nat → Instant}

/-- What `missing` reports and what it leaves behind. -/
structure Reports (w : DatagramWindow) (since : Duration) (now : Instant) (marked : Nat → Instant) :
    Prop where
  decreasing : ((w.missing since now marked).2.map Uint24.value).Pairwise (· > ·)
  /-- The indices of the window that are not buffered and have one above them that has waited. -/
  mem_iff : ∀ i, i ∈ (w.missing since now marked).2.map Uint24.value ↔
    w.lowest.value ≤ i ∧ i < w.highest.value ∧ i ∉ w.queue ∧ w.Overdue since now i
  /-- The first index that was neither buffered nor reported. -/
  lowest_isLeast : IsLeast {i | w.lowest.value ≤ i ∧ i ∉ w.queue ∧
    i ∉ (w.missing since now marked).2.map Uint24.value} (w.missing since now marked).1.lowest.value
  notMem : ∀ i ∈ (w.missing since now marked).2.map Uint24.value,
    i ∉ (w.missing since now marked).1.queue
  lookup_eq : ∀ i, (w.missing since now marked).1.lowest.value ≤ i →
    (w.missing since now marked).1.queue.lookup i = w.queue.lookup i

/-- The scan changes the map at the indices it reports only. -/
theorem lookup_missingLoop {lowest i : Nat} (k : Nat) (missing : Bool)
    (queue : HashMap Nat Instant) (hk : lowest + k ≤ 2 ^ 24)
    (hi : i ∉ (missingLoop since now marked lowest k missing queue).1.map Uint24.value) :
    (missingLoop since now marked lowest k missing queue).2.lookup i = queue.lookup i := by
  induction k generalizing missing queue with
  | zero => rfl
  | succ k ih =>
      rw [missingLoop] at hi ⊢
      cases hl : queue.lookup (lowest + k) with
      | some time =>
          rw [hl] at hi
          exact ih _ queue (by omega) hi
      | none =>
          rw [hl] at hi
          cases missing with
          | false => exact ih false queue (by omega) hi
          | true =>
              dsimp only at hi ⊢
              rw [if_pos rfl] at hi ⊢
              rw [List.map_cons, List.mem_cons, not_or, Uint24.value_new_of_lt (by omega)] at hi
              rw [ih true _ (by omega) hi.2, lookup_insert_eq, if_neg hi.1]

/-- The window that `missing` leaves behind is bounded, and waits for its lowest index. -/
theorem Bounded.missing (h : w.Bounded) : (w.missing since now marked).1.Bounded :=
  (h.marked since now marked).shift

theorem Bounded.notMem_missing (h : w.Bounded) :
    (w.missing since now marked).1.lowest.value ∉ (w.missing since now marked).1.queue :=
  (h.marked since now marked).notMem_shift

/-- The reported indices, as numbers. -/
theorem Bounded.mem_map_missing (h : w.Bounded) {i : Nat} :
    i ∈ (w.missing since now marked).2.map Uint24.value ↔
      w.lowest.value ≤ i ∧ i < w.highest.value ∧ i ∉ w.queue ∧ w.Overdue since now i := by
  rw [List.mem_map]
  constructor
  · rintro ⟨u, hu, rfl⟩
    obtain ⟨hnot, hover⟩ := h.mem_missing.mp hu
    obtain ⟨k, time, hk, hl, -⟩ := id hover
    have hkh := (h.mem k (Finmap.mem_of_lookup_eq_some hl)).2
    exact ⟨Nat.le_of_not_lt fun hlt ↦ hnot (Or.inl hlt), hk.trans hkh,
      fun hmem ↦ hnot (Or.inr hmem), hover⟩
  · rintro ⟨hlo, hhi, hnot, hover⟩
    have hv : (Uint24.new i).value = i := Uint24.value_new_of_lt (hhi.trans w.highest.lt)
    refine ⟨Uint24.new i, h.mem_missing.mpr ?_, hv⟩
    rw [hv]
    exact ⟨fun hseen ↦ hseen.elim (Nat.not_lt_of_le hlo) hnot, hover⟩

/-- The frontier behind the scan is the first index that was neither buffered nor reported. -/
theorem Bounded.missing_lowest_isLeast (h : w.Bounded) :
    IsLeast {i | w.lowest.value ≤ i ∧ i ∉ w.queue ∧
      i ∉ (w.missing since now marked).2.map Uint24.value}
      (w.missing since now marked).1.lowest.value := by
  have hseen (i : Nat) := @seen_missing since now marked w i
  constructor
  · -- an index that has been seen is below the frontier or buffered, and this one is neither
    have hnot : ¬ (w.missing since now marked).1.Seen
        (w.missing since now marked).1.lowest.value :=
      fun hs ↦ hs.elim (Nat.lt_irrefl _) h.notMem_missing
    rw [hseen, not_or] at hnot
    exact ⟨lowest_le_missing, fun hmem ↦ hnot.1 (Or.inr hmem), hnot.2⟩
  · rintro i ⟨hlo, hnot, hreported⟩
    refine Nat.le_of_not_lt fun hlt ↦ ?_
    rcases (hseen i).mp (Or.inl hlt) with (hs | hs) | hs
    · exact absurd hlo (Nat.not_le_of_lt hs)
    · exact hnot hs
    · exact hreported hs

/-- Everything below an index that has waited is contiguous with the frontier, so what is reported
ends up below it. -/
theorem Bounded.lt_lowest_missing (h : w.Bounded) {i : Nat}
    (hi : i ∈ (w.missing since now marked).2.map Uint24.value) :
    i < (w.missing since now marked).1.lowest.value := by
  obtain ⟨-, -, -, k, time, hk, hl, hlate⟩ := h.mem_map_missing.mp hi
  obtain ⟨hlo, hnot, hreported⟩ := (@Bounded.missing_lowest_isLeast w since now marked h).1
  refine Nat.lt_of_not_le fun hle ↦ hreported (h.mem_map_missing.mpr ?_)
  have hkh := (h.mem k (Finmap.mem_of_lookup_eq_some hl)).2
  have hlt := hle.trans_lt hk
  exact ⟨hlo, hlt.trans hkh, hnot, k, time, hlt, hl, hlate⟩

/-- **What a scan reports and leaves behind.** -/
theorem Bounded.reports (h : w.Bounded) : Reports w since now marked where
  decreasing := missing_pairwise
  mem_iff _ := h.mem_map_missing
  lowest_isLeast := h.missing_lowest_isLeast
  notMem i hi hmem :=
    absurd (h.lt_lowest_missing hi) (Nat.not_lt_of_le (h.missing.mem i hmem).1)
  lookup_eq i hi := by
    have hnot : i ∉ (w.missing since now marked).2.map Uint24.value :=
      fun hmem ↦ absurd (h.lt_lowest_missing hmem) (Nat.not_lt_of_le hi)
    have hlo := h.frontier_le
    have hhi := w.highest.lt
    rw [← lookup_missingLoop (w.highest.value - w.lowest.value) false w.queue (by omega) hnot]
    -- the shift removes nothing at or above the frontier that it leaves
    change (DatagramWindow.shift _).1.lowest.value ≤ i at hi
    change ((DatagramWindow.shift _).1.queue).lookup i = _
    rw [shift_lowest_value] at hi
    exact (lookup_drain _ _ _ i).trans (if_neg fun hr ↦ absurd hi (Nat.not_le_of_lt hr.2))

/-- Four indices, of which the last and the second have come.  Only the second is old: the first is
reported, and the window goes on to wait for the third. -/
theorem reports_four :
    let w : DatagramWindow :=
      (((new.add (Uint24.new 1) 0).1).add (Uint24.new 3) 10).1
    Reports w 5 12 (fun _ ↦ 12) ∧
      (w.missing 5 12 fun _ ↦ 12).2 = [Uint24.new 0] ∧
      (w.missing 5 12 fun _ ↦ 12).1.lowest = Uint24.new 2 := by
  have hempty : new.Bounded := Within.empty _
  exact ⟨((hempty.add (by decide) 0).add (by decide) 10).reports, by decide, by decide⟩

end DatagramWindow

end Ragnet
