import Ragnet.Bounds
import Ragnet.Conn.Arrival

/-!
# What the windows take in

A new number or order index makes a window larger than `MAX_WINDOW_SIZE` exactly when it is out of
reach: too far above one that is still missing.  The datagram window gives up the missing numbers
below one that arrived long enough ago, so these do not count for it.
-/

namespace Ragnet

open HashMap

/-! ## Datagrams -/

namespace DatagramWindow

variable {w : DatagramWindow} {rtt since : Duration} {now : Instant} {clock : Clock} {seq : Uint24}

/-- A number above this one arrived at least `since` ago. -/
def Overdue (self : DatagramWindow) (since : Duration) (now : Instant) (u : Nat) : Prop :=
  ∃ k time, u < k ∧ self.queue.lookup k = some time ∧ since ≤ durationSince now time

/-- The number is less than `MAX_WINDOW_SIZE` above every number that is missing and not overdue
when it arrives. -/
def Reaches (self : DatagramWindow) (rtt : Duration) (clock : Clock) (seq : Uint24) : Prop :=
  ∀ u, u < seq.value → ¬ self.Seen u →
    ¬ (self.add seq (clock 0)).1.Overdue (rtt + rtt / 2) (clock 1) u →
      seq.value < u + maxWindowSize

/-- `missing` reports the numbers that have not been seen and are overdue. -/
theorem Bounded.mem_missing (h : w.Bounded) {marked : Nat → Instant} {u : Uint24} :
    u ∈ (w.missing since now marked).2 ↔ ¬ w.Seen u.value ∧ w.Overdue since now u.value := by
  have hlo := h.frontier_le
  have hhi := w.highest.lt
  change u ∈ (missingLoop since now marked w.lowest.value
    (w.highest.value - w.lowest.value) false w.queue).1 ↔ _
  rw [mem_missingLoop _ _ _ (by omega)]
  constructor
  · rintro ⟨hle, -, hnot, hlate⟩
    obtain ⟨k, time, hk, -, hl, ht⟩ := hlate.resolve_left Bool.false_ne_true
    refine ⟨?_, k, time, hk, hl, ht⟩
    rintro (hlt | hmem)
    · exact absurd hle (Nat.not_le_of_lt hlt)
    · exact hnot hmem
  · rintro ⟨hns, k, time, hk, hl, ht⟩
    have hkh := (h.mem k (Finmap.mem_of_lookup_eq_some hl)).2
    refine ⟨Nat.le_of_not_lt fun hlt ↦ hns (Or.inl hlt), by omega, fun hmem ↦ hns (Or.inr hmem),
      Or.inr ⟨k, time, hk, by omega, hl, ht⟩⟩

/-- A window that waits for its lowest number is not shifted. -/
theorem shift_of_notMem (h : w.lowest.value ∉ w.queue) : w.shift.2 = 0 := by
  change (w.queue.drain (w.highest.value - w.lowest.value) w.lowest.value).1.length = 0
  cases w.highest.value - w.lowest.value with
  | zero => rfl
  | succ k =>
      rw [drain_succ_none k (Finmap.lookup_eq_none.mpr h)]
      rfl

/-- Entering a number reports the missing ones that are overdue, unless it is the one waited for. -/
theorem Bounded.mem_enter (h : w.Bounded) (hseq : seq ≠ lastIndex) {u : Uint24} :
    u ∈ (w.enter rtt clock seq).2 ↔ (w.add seq (clock 0)).1.shift.2 = 0 ∧
      ¬ (w.add seq (clock 0)).1.Seen u.value ∧
        (w.add seq (clock 0)).1.Overdue (rtt + rtt / 2) (clock 1) u.value := by
  rw [enter]
  by_cases hshift : (w.add seq (clock 0)).1.shift.2 = 0
  · rw [if_pos hshift, shift_eq_self hshift, (h.add hseq (clock 0)).mem_missing]
    exact ⟨fun hu ↦ ⟨hshift, hu⟩, fun hu ↦ hu.2⟩
  · rw [if_neg hshift]
    exact iff_of_false List.not_mem_nil fun hu ↦ hshift hu.1

theorem Bounded.enter (h : w.Bounded) (hseq : seq ≠ lastIndex) :
    (w.enter rtt clock seq).1.Bounded := by
  have hshift := (h.add hseq (clock 0)).shift
  rw [DatagramWindow.enter]
  split
  · exact (hshift.marked _ _ _).shift
  · exact hshift

theorem Bounded.notMem_enter (h : w.Bounded) (hseq : seq ≠ lastIndex) :
    (w.enter rtt clock seq).1.lowest.value ∉ (w.enter rtt clock seq).1.queue := by
  have hadd := h.add hseq (clock 0)
  rw [DatagramWindow.enter]
  split
  · exact (hadd.shift.marked _ _ _).notMem_shift
  · exact hadd.notMem_shift

/-- A window between two datagrams: it waits for its lowest number, and it is not too big. -/
structure Compact (w : DatagramWindow) : Prop where
  bounded : w.Bounded
  notMem : w.lowest.value ∉ w.queue
  size_le : w.highest.value - w.lowest.value ≤ maxWindowSize

theorem compact_new : new.Compact :=
  ⟨Within.empty _, Finmap.notMem_empty, Nat.zero_le _⟩

/-- **A window stays small as long as the numbers are in reach.** -/
theorem Compact.enter_size_iff (h : w.Compact) (hseq : seq ≠ lastIndex)
    (hs : ¬ w.Seen seq.value) :
    (w.enter rtt clock seq).1.highest.value - (w.enter rtt clock seq).1.lowest.value ≤
      maxWindowSize ↔ w.Reaches rtt clock seq := by
  have hbounded := h.bounded
  have hsize := h.size_le
  have hlo (u : Nat) (hu : ¬ w.Seen u) : w.lowest.value ≤ u :=
    Nat.le_of_not_lt fun hlt ↦ hu (Or.inl hlt)
  have hhigh : (w.enter rtt clock seq).1.highest.value =
      if seq.value + 1 > w.highest.value then seq.value + 1 else w.highest.value := by
    rw [enter_highest, add_of_not_seen hs]
    exact value_bound hseq
  have hlow := lowest_le_enter w rtt clock seq
  by_cases hbeyond : seq.value + 1 > w.highest.value
  · rw [sub_le_iff_of_notMem (hbounded.notMem_enter hseq), hhigh, if_pos hbeyond]
    constructor
    · intro hall u hu hns hnot
      have hle := hall u (by omega) fun hseen ↦ ?_
      · omega
      rcases seen_enter.mp hseen with hseen | rfl | hreported
      · exact hns hseen
      · exact absurd hu (lt_irrefl _)
      · obtain ⟨v, hv, rfl⟩ := List.mem_map.mp hreported
        exact hnot ((hbounded.mem_enter hseq).mp hv).2.2
    · intro hall u hu hns
      have hns' (hor : w.Seen u ∨ u = seq.value ∨ u ∈ (w.enter rtt clock seq).2.map Uint24.value) :
          False := hns (seen_enter.mpr hor)
      have hunseen : ¬ w.Seen u := fun hseen ↦ hns' (Or.inl hseen)
      have hne : u ≠ seq.value := fun he ↦ hns' (Or.inr (Or.inl he))
      have hlt := hall u (by omega) hunseen fun hover ↦ ?_
      · omega
      -- what is overdue has been reported, since the window still waits for its lowest number
      have hlowest : (w.add seq (clock 0)).1.lowest.value ∉ (w.add seq (clock 0)).1.queue := by
        have hul := hlo u hunseen
        rw [add_of_not_seen hs]
        intro hmem
        rcases Finmap.mem_insert.mp hmem with he | hmem
        · dsimp only at he
          omega
        · exact h.notMem hmem
      have huv : (Uint24.new u).value = u := by
        have hlt := seq.lt
        exact Uint24.value_new_of_lt (by omega)
      refine hns' (Or.inr (Or.inr (List.mem_map.mpr ⟨Uint24.new u, ?_, huv⟩)))
      rw [hbounded.mem_enter hseq, huv]
      refine ⟨shift_of_notMem hlowest, fun hseen ↦ ?_, hover⟩
      exact (seen_add.mp hseen).elim hunseen hne
  · rw [hhigh, if_neg hbeyond]
    refine iff_of_true (by omega) fun u hu hns _ ↦ ?_
    have hul := hlo u hns
    omega

theorem Compact.enter (h : w.Compact) (hseq : seq ≠ lastIndex) (hs : ¬ w.Seen seq.value)
    (hreach : w.Reaches rtt clock seq) : (w.enter rtt clock seq).1.Compact :=
  ⟨h.bounded.enter hseq, h.bounded.notMem_enter hseq, (h.enter_size_iff hseq hs).mpr hreach⟩

end DatagramWindow

/-! ## Ordered packets -/

namespace PacketQueue

variable {q : PacketQueue} {index : Uint24} {packet : Wire.Bytes}

/-- The order index is less than `MAX_WINDOW_SIZE` above every one that is missing. -/
def Reaches (self : PacketQueue) (index : Uint24) : Prop :=
  ∀ u, u < index.value → ¬ self.Taken u → index.value < u + maxWindowSize

/-- A queue between two packets: it waits for its lowest index, and it is not too big. -/
structure Compact (q : PacketQueue) : Prop where
  bounded : q.Bounded
  notMem : q.lowest.value ∉ q.queue
  size_le : q.highest.value - q.lowest.value ≤ maxWindowSize

theorem compact_new : new.Compact :=
  ⟨Within.empty _, Finmap.notMem_empty, Nat.zero_le _⟩

/-- **A queue stays small as long as the indices are in reach.** -/
theorem Compact.put_size_iff (h : q.Compact) (hindex : index ≠ lastIndex)
    (ht : ¬ q.Taken index.value) :
    (q.put index packet).1.highest.value - (q.put index packet).1.lowest.value ≤ maxWindowSize ↔
      q.Reaches index := by
  have hbound := @value_bound index q.highest hindex
  simp only [gt_iff_lt, Nat.lt_add_one_iff] at hbound
  have hiff := Within.insert_sub_le_iff h.bounded h.notMem (by decide : 0 < maxWindowSize) h.size_le
    (Nat.le_of_not_lt fun hlt ↦ ht (Or.inl hlt))
  simp only [gt_iff_lt, Nat.lt_add_one_iff] at hiff
  rw [put_of_not_taken ht]
  dsimp only [ge_iff_le]
  rw [hbound]
  exact hiff

theorem Compact.fetch (h : q.Compact) (hindex : index ≠ lastIndex) (ht : ¬ q.Taken index.value)
    (hreach : q.Reaches index) : (q.put index packet).1.fetch.1.Compact := by
  have hbounded := h.bounded.put hindex packet
  refine ⟨hbounded.fetch, hbounded.notMem_fetch, ?_⟩
  have hsize := (@Compact.put_size_iff _ _ packet h hindex ht).mpr hreach
  change (q.put index packet).1.highest.value - (q.put index packet).1.fetch.1.lowest.value ≤ _
  rw [fetch_lowest_value]
  omega

end PacketQueue

end Ragnet
