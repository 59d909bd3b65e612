import Ragnet.Binary
import Ragnet.Lib.Drain

/-!
# The datagram window

`datagram_window.rs`: the receiver's record of which datagram sequence numbers have arrived.  The
map holds, for each number at or above `lowest` that has arrived or has been asked for, a time.

Clock readings are arguments.  `missing` reads the clock once at its start and once more for every
index it marks, so it takes the first reading and a function for the others.

What the window means is the set of numbers it has *seen*: those below `lowest` and those in the
map.  Each operation is characterised by what it does to that set: `add` and `missing` put
numbers in that were not there, and `shift` leaves the set alone.
-/

namespace Ragnet

open HashMap

/-- `Instant`, in nanoseconds from an arbitrary origin. -/
abbrev Instant := Int

/-- `Duration`, in nanoseconds. -/
abbrev Duration := Nat

/-- `Instant::duration_since`, which saturates at zero. -/
def durationSince (now time : Instant) : Duration := (now - time).toNat

/-- `Duration::from_secs`. -/
def seconds (s : Nat) : Duration := s * 10 ^ 9

structure DatagramWindow where
  lowest : Uint24
  highest : Uint24
  queue : HashMap Nat Instant

namespace DatagramWindow

def new : DatagramWindow := ⟨Uint24.new 0, Uint24.new 0, ∅⟩

def seen (self : DatagramWindow) (index : Uint24) : Bool :=
  if index.value < self.lowest.value then true else self.queue.containsKey index.value

/-- `DatagramWindow::add`.  The sum is a `u32` and does not overflow; `Uint24::new` masks it. -/
def add (self : DatagramWindow) (index : Uint24) (now : Instant) : DatagramWindow × Bool :=
  if self.seen index then (self, false)
  else
    let highest :=
      if index.value + 1 > self.highest.value then Uint24.new (index.value + 1) else self.highest
    ({ self with highest := highest, queue := self.queue.insert index.value now }, true)

def shift (self : DatagramWindow) : DatagramWindow × Nat :=
  let drained := self.queue.drain (self.highest.value - self.lowest.value) self.lowest.value
  ({ self with
      lowest := Uint24.new (self.lowest.value + drained.1.length), queue := drained.2 },
    drained.1.length)

/-- The loop of `DatagramWindow::missing` over the `k` indices above `lowest`, from the highest
down: the indices to report, and the map with these marked. -/
def missingLoop (since : Duration) (now : Instant) (marked : Nat → Instant) (lowest : Nat) :
    Nat → Bool → HashMap Nat Instant → List Uint24 × HashMap Nat Instant
  | 0, _, queue => ([], queue)
  | k + 1, missing, queue =>
      match queue.lookup (lowest + k) with
      | some time =>
          -- all packets before this one took too long to arrive
          missingLoop since now marked lowest k
            (missing || decide (since ≤ durationSince now time)) queue
      | none =>
          if missing then
            let rest := missingLoop since now marked lowest k missing
              (queue.insert (lowest + k) (marked (lowest + k) - seconds 3600))
            (Uint24.new (lowest + k) :: rest.1, rest.2)
          else missingLoop since now marked lowest k missing queue

/-- `DatagramWindow::missing`.  `now` is the reading at the start of the call and `marked i` the
one taken when index `i` is marked as requested. -/
def missing (self : DatagramWindow) (since : Duration) (now : Instant) (marked : Nat → Instant) :
    DatagramWindow × List Uint24 :=
  let scanned := missingLoop since now marked self.lowest.value
    (self.highest.value - self.lowest.value) false self.queue
  (({ self with queue := scanned.2 } : DatagramWindow).shift.1, scanned.1)

def size (build : Build) (self : DatagramWindow) : Result Nat :=
  Checked.sub build 32 self.highest.value self.lowest.value

/-! ## The set of numbers seen -/

/-- The sequence numbers that `seen` answers `true` for. -/
def Seen (self : DatagramWindow) (i : Nat) : Prop := Taken self.lowest.value self.queue i

theorem seen_iff {w : DatagramWindow} {index : Uint24} :
    w.seen index = true ↔ w.Seen index.value := by
  rw [seen, Seen, Taken]
  split
  · next h => simp [h]
  · next h => rw [containsKey_iff]; simp [h]

instance (w : DatagramWindow) (i : Nat) : Decidable (w.Seen i) :=
  inferInstanceAs (Decidable (_ ∨ _))

@[simp] theorem not_seen_new (i : Nat) : ¬ new.Seen i := by
  rintro (h | h)
  · exact absurd h (Nat.not_lt_zero i)
  · exact Finmap.notMem_empty h

/-- A number already seen is refused and changes nothing. -/
theorem add_of_seen {w : DatagramWindow} {index : Uint24} (h : w.Seen index.value)
    (now : Instant) : w.add index now = (w, false) := by
  rw [add, if_pos (seen_iff.mpr h)]

/-- A number not yet seen is accepted. -/
theorem add_of_not_seen {w : DatagramWindow} {index : Uint24} (h : ¬ w.Seen index.value)
    (now : Instant) :
    w.add index now =
      (⟨w.lowest,
        if index.value + 1 > w.highest.value then Uint24.new (index.value + 1) else w.highest,
        w.queue.insert index.value now⟩, true) := by
  rw [add, if_neg (fun hs ↦ h (seen_iff.mp hs))]

theorem add_accepts_iff {w : DatagramWindow} {index : Uint24} {now : Instant} :
    (w.add index now).2 = true ↔ ¬ w.Seen index.value := by
  constructor
  · intro h hs
    rw [add_of_seen hs] at h
    exact Bool.false_ne_true h
  · intro h
    rw [add_of_not_seen h]

@[simp] theorem add_lowest (w : DatagramWindow) (index : Uint24) (now : Instant) :
    (w.add index now).1.lowest = w.lowest := by
  by_cases h : w.Seen index.value
  · rw [add_of_seen h]
  · rw [add_of_not_seen h]

/-- After `add`, the number has been seen, and otherwise what was seen before. -/
theorem seen_add {w : DatagramWindow} {index : Uint24} {now : Instant} {i : Nat} :
    (w.add index now).1.Seen i ↔ w.Seen i ∨ i = index.value := by
  by_cases h : w.Seen index.value
  · rw [add_of_seen h]
    constructor
    · exact Or.inl
    · rintro (hi | rfl)
      exacts [hi, h]
  · rw [add_of_not_seen h]
    exact taken_insert

/-- The frontier after `shift`.  It stays below `highest` when it moves, so it is not masked. -/
theorem shift_lowest_value (w : DatagramWindow) :
    w.shift.1.lowest.value =
      w.lowest.value +
        (w.queue.drain (w.highest.value - w.lowest.value) w.lowest.value).1.length := by
  have hle := length_drain_le (w.highest.value - w.lowest.value) w.queue w.lowest.value
  have hlo := w.lowest.lt
  have hhi := w.highest.lt
  exact Uint24.value_new_of_lt (by omega)

theorem lowest_le_shift (w : DatagramWindow) : w.lowest.value ≤ w.shift.1.lowest.value := by
  rw [shift_lowest_value]
  exact Nat.le_add_right _ _

/-- A window that `shift` cannot move is left as it is. -/
theorem shift_eq_self {w : DatagramWindow} (h : w.shift.2 = 0) : w.shift.1 = w := by
  have hlen : (w.queue.drain (w.highest.value - w.lowest.value) w.lowest.value).1.length = 0 := h
  have hqueue : (w.queue.drain (w.highest.value - w.lowest.value) w.lowest.value).2 = w.queue := by
    refine Finmap.ext_lookup fun i ↦ ?_
    rw [lookup_drain, hlen, if_neg (by omega)]
  rw [shift]
  dsimp only
  rw [hlen, hqueue, Nat.add_zero, Uint24.new_value]

/-- `shift` does not change what has been seen. -/
theorem seen_shift {w : DatagramWindow} {i : Nat} : w.shift.1.Seen i ↔ w.Seen i := by
  rw [Seen, shift_lowest_value]
  exact taken_drain _ _ _ _

/-! ## What `missing` reports -/

section Missing

variable {since : Duration} {now : Instant} {marked : Nat → Instant} {lowest : Nat}

/-- What comes late above `u`, at the end of a range or before it. -/
theorem exists_late_succ {late : Instant → Prop} {queue : HashMap Nat Instant} {u n : Nat} :
    (∃ j time, u < j ∧ j < n + 1 ∧ queue.lookup j = some time ∧ late time) ↔
      (u < n ∧ ∃ time, queue.lookup n = some time ∧ late time) ∨
        ∃ j time, u < j ∧ j < n ∧ queue.lookup j = some time ∧ late time := by
  constructor
  · rintro ⟨j, time, hj, hjn, hl, ht⟩
    rcases Nat.lt_succ_iff_lt_or_eq.mp hjn with hjn | rfl
    · exact Or.inr ⟨j, time, hj, hjn, hl, ht⟩
    · exact Or.inl ⟨hj, time, hl, ht⟩
  · rintro (⟨hu, time, hl, ht⟩ | ⟨j, time, hj, hjn, hl, ht⟩)
    · exact ⟨n, time, hu, Nat.lt_succ_self n, hl, ht⟩
    · exact ⟨j, time, hj, hjn.trans (Nat.lt_succ_self n), hl, ht⟩

/-- The loop reports the indices of its range that are not in the map and have one above them that
came late. -/
theorem mem_missingLoop {u : Uint24} (k : Nat) (missing : Bool) (queue : HashMap Nat Instant)
    (hk : lowest + k ≤ 2 ^ 24) :
    u ∈ (missingLoop since now marked lowest k missing queue).1 ↔
      lowest ≤ u.value ∧ u.value < lowest + k ∧ u.value ∉ queue ∧
        (missing = true ∨ ∃ j time, u.value < j ∧ j < lowest + k ∧
          queue.lookup j = some time ∧ since ≤ durationSince now time) := by
  induction k generalizing missing queue with
  | zero =>
      refine iff_of_false List.not_mem_nil ?_
      rintro ⟨hlo, hhi, -⟩
      omega
  | succ k ih =>
      have hv : (Uint24.new (lowest + k)).value = lowest + k := Uint24.value_new_of_lt (by omega)
      rw [missingLoop, ← Nat.add_assoc]
      cases hl : queue.lookup (lowest + k) with
      | some time =>
          have hmem : lowest + k ∈ queue := Finmap.mem_of_lookup_eq_some hl
          rw [exists_late_succ, hl]
          dsimp only
          rw [ih _ queue (by omega), Bool.or_eq_true, decide_eq_true_iff, or_assoc]
          simp only [Option.some.injEq, exists_eq_left']
          constructor
          · rintro ⟨hlo, hhi, hnot, hlate⟩
            exact ⟨hlo, by omega, hnot, hlate.imp_right (Or.imp_left fun ht ↦ ⟨hhi, ht⟩)⟩
          · rintro ⟨hlo, hhi, hnot, hlate⟩
            have hne : u.value ≠ lowest + k := fun he ↦ hnot (he ▸ hmem)
            exact ⟨hlo, by omega, hnot, hlate.imp_right (Or.imp_left And.right)⟩
      | none =>
          have hnot : lowest + k ∉ queue := Finmap.lookup_eq_none.mp hl
          cases missing with
          | false =>
              rw [exists_late_succ, hl]
              dsimp only
              rw [if_neg Bool.false_ne_true, ih false queue (by omega)]
              simp only [Bool.false_eq_true, reduceCtorEq, false_and, exists_false, and_false,
                false_or]
              constructor
              · rintro ⟨hlo, hhi, hrest⟩
                exact ⟨hlo, by omega, hrest⟩
              · rintro ⟨hlo, -, hu, j, time, hj, hjk, hlate⟩
                exact ⟨hlo, by omega, hu, j, time, hj, hjk, hlate⟩
          | true =>
              dsimp only
              rw [if_pos rfl, List.mem_cons, ih true _ (by omega), Finmap.mem_insert, ← hv,
                Uint24.value_inj, hv]
              constructor
              · rintro (rfl | ⟨hlo, hhi, hu, -⟩)
                · rw [hv]
                  exact ⟨Nat.le_add_right _ _, Nat.lt_succ_self _, hnot, Or.inl rfl⟩
                · exact ⟨hlo, by omega, fun hq ↦ hu (Or.inr hq), Or.inl rfl⟩
              · rintro ⟨hlo, hhi, hu, -⟩
                by_cases he : u = Uint24.new (lowest + k)
                · exact Or.inl he
                · have hne : u.value ≠ lowest + k := fun heq ↦ he (Uint24.ext (heq.trans hv.symm))
                  exact Or.inr ⟨hlo, by omega, fun hq ↦ hq.elim he hu, Or.inl rfl⟩

/-- It reports them in strictly decreasing order. -/
theorem missingLoop_pairwise (k : Nat) (missing : Bool) (queue : HashMap Nat Instant)
    (hk : lowest + k ≤ 2 ^ 24) :
    ((missingLoop since now marked lowest k missing queue).1.map Uint24.value).Pairwise
      (· > ·) := by
  induction k generalizing missing queue with
  | zero => exact List.Pairwise.nil
  | succ k ih =>
      rw [missingLoop]
      cases queue.lookup (lowest + k) with
      | some time => exact ih _ queue (by omega)
      | none =>
          cases missing with
          | false => exact ih false queue (by omega)
          | true =>
              refine List.pairwise_cons.mpr ⟨fun v hv ↦ ?_, ih true _ (by omega)⟩
              obtain ⟨u, hu, rfl⟩ := List.mem_map.mp hv
              rw [Uint24.value_new_of_lt (by omega)]
              exact ((mem_missingLoop k true _ (by omega)).mp hu).2.1

/-- And it marks exactly these. -/
theorem mem_missingLoop_queue {i : Nat} (k : Nat) (missing : Bool) (queue : HashMap Nat Instant)
    (hk : lowest + k ≤ 2 ^ 24) :
    i ∈ (missingLoop since now marked lowest k missing queue).2 ↔ i ∈ queue ∨
      i ∈ (missingLoop since now marked lowest k missing queue).1.map Uint24.value := by
  induction k generalizing missing queue with
  | zero => exact (or_iff_left List.not_mem_nil).symm
  | succ k ih =>
      rw [missingLoop]
      cases queue.lookup (lowest + k) with
      | some time => exact ih _ queue (by omega)
      | none =>
          cases missing with
          | false => exact ih false queue (by omega)
          | true =>
              dsimp only
              rw [if_pos rfl, ih true _ (by omega), Finmap.mem_insert, List.map_cons,
                List.mem_cons, Uint24.value_new_of_lt (by omega)]
              tauto

variable {w : DatagramWindow}

private theorem window_range (w : DatagramWindow) :
    w.lowest.value + (w.highest.value - w.lowest.value) ≤ 2 ^ 24 := by
  have hlo := w.lowest.lt
  have hhi := w.highest.lt
  omega

/-- Reported numbers were not seen before. -/
theorem not_seen_of_missing {u : Uint24} (h : u ∈ (w.missing since now marked).2) :
    ¬ w.Seen u.value := by
  obtain ⟨h₁, -, h₃, -⟩ := (mem_missingLoop _ false w.queue (window_range w)).mp h
  rintro (hs | hs)
  · exact absurd h₁ (Nat.not_le_of_lt hs)
  · exact h₃ hs

/-- Reported numbers come in strictly decreasing order. -/
theorem missing_pairwise :
    ((w.missing since now marked).2.map Uint24.value).Pairwise (· > ·) :=
  missingLoop_pairwise _ false w.queue (window_range w)

theorem missing_nodup : (w.missing since now marked).2.Nodup := by
  refine List.Nodup.of_map Uint24.value ?_
  exact (missing_pairwise (w := w)).imp (fun h ↦ (ne_of_lt h).symm)

/-- After `missing`, the reported numbers have been seen, and otherwise what was seen before. -/
theorem seen_missing {i : Nat} :
    (w.missing since now marked).1.Seen i ↔
      w.Seen i ∨ i ∈ (w.missing since now marked).2.map Uint24.value := by
  have hm := @mem_missingLoop_queue since now marked _ i _ false w.queue (window_range w)
  change (DatagramWindow.shift _).1.Seen i ↔ _
  rw [seen_shift]
  change (i < w.lowest.value ∨ i ∈ _) ↔ (i < w.lowest.value ∨ i ∈ w.queue) ∨ i ∈ List.map _ _
  rw [hm, or_assoc]
  rfl

theorem lowest_le_missing : w.lowest.value ≤ (w.missing since now marked).1.lowest.value := by
  change _ ≤ (DatagramWindow.shift _).1.lowest.value
  exact (lowest_le_shift _).trans' le_rfl

end Missing

end DatagramWindow

end Ragnet
